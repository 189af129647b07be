import EasyLoRa.Reception

namespace EasyLoRa.ReceivedBytes

open EasyLoRa.TransportModel
open EasyLoRa.TransportSystem
open EasyLoRa.TransportOutcomes
open EasyLoRa.Reception
open EasyLoRa.TransitionSystem

/-- The bytes that arrive in a step, each with the session it arrives in. -/
def arrivals (s : Transport) (a : Action) : List (Nat × UInt8) :=
  (arriving a).map fun byte => (s.session, byte)

/-- Consecutive bytes that leave `rxBuffer` together, and whether the frame handler gets
them. -/
structure Piece where
  heard : Bool
  bytes : List (Nat × UInt8)

def Piece.package (piece : Piece) : List UInt8 := piece.bytes.map Prod.snd

/-- The bytes arrived so far are cut into pieces, and the rest is in `rxBuffer`. The
packages are the pieces heard. -/
structure Cut (s : Transport) (arrived : List (Nat × UInt8)) (pieces : List Piece)
    (rest : List (Nat × UInt8)) : Prop where
  split : arrived = pieces.flatMap Piece.bytes ++ rest
  buffered : s.rxBuffer = rest.map Prod.snd
  current : ∀ byte ∈ rest, byte.1 = s.session
  packages : packages s.events = (pieces.filter Piece.heard).map Piece.package
  oneSession : ∀ piece ∈ pieces, ∃ session, ∀ byte ∈ piece.bytes, byte.1 = session

theorem cut_init : Cut Transport.init [] [] [] := by
  constructor <;> simp [Transport.init, Reception.packages]

section

variable {s t : Transport} {arrived : List (Nat × UInt8)} {pieces : List Piece}
variable {rest : List (Nat × UInt8)} {more : List Event}

/-- A step that touches neither `rxBuffer` nor the session. -/
theorem cut_kept (hs : Cut s arrived pieces rest) (hbuffer : t.rxBuffer = s.rxBuffer)
    (hsession : t.session = s.session) (hevents : t.events = s.events ++ more)
    (hmore : Reception.packages more = []) : Cut t arrived pieces rest := by
  refine ⟨hs.split, hbuffer.trans hs.buffered, hsession ▸ hs.current, ?_, hs.oneSession⟩
  rw [hevents, packages_append, hmore, List.append_nil, hs.packages]

/-- A step that clears `rxBuffer`. -/
theorem cut_cleared (hs : Cut s arrived pieces rest) (hbuffer : t.rxBuffer = [])
    (hevents : t.events = s.events ++ more) (hmore : Reception.packages more = []) :
    Cut t arrived (pieces ++ [⟨false, rest⟩]) [] := by
  refine ⟨by simp [hs.split], hbuffer, by simp, ?_, ?_⟩
  · rw [hevents, packages_append, hmore, List.append_nil, hs.packages]
    simp
  · intro piece hpiece
    rcases List.mem_append.mp hpiece with hpiece | hpiece
    · exact hs.oneSession piece hpiece
    · obtain rfl := List.mem_singleton.mp hpiece
      exact ⟨s.session, hs.current⟩

theorem cut_received (hs : Cut s arrived pieces rest) (bytes : List UInt8) :
    Cut { s with rxBuffer := s.rxBuffer ++ bytes }
      (arrived ++ bytes.map fun byte => (s.session, byte)) pieces
      (rest ++ bytes.map fun byte => (s.session, byte)) := by
  refine ⟨by rw [hs.split, List.append_assoc], ?_, ?_, hs.packages, hs.oneSession⟩
  · simp [hs.buffered, Function.comp_def]
  · intro byte hbyte
    rcases List.mem_append.mp hbyte with hbyte | hbyte
    · exact hs.current byte hbyte
    · obtain ⟨b, -, rfl⟩ := List.mem_map.mp hbyte
      rfl

theorem cut_delivered (hs : Cut s arrived pieces rest) (bytesRead : Nat)
    (hbuffer : t.rxBuffer = s.rxBuffer.drop bytesRead) (hsession : t.session = s.session)
    (hevents : t.events =
      s.events ++ calls s.frameHandler (.frame (s.rxBuffer.take bytesRead))) :
    Cut t arrived (pieces ++ [⟨s.frameHandler.isSome, rest.take bytesRead⟩])
      (rest.drop bytesRead) := by
  refine ⟨by simp [hs.split], ?_, ?_, ?_, ?_⟩
  · rw [hbuffer, hs.buffered, List.map_drop]
  · exact fun byte hbyte => hsession ▸ hs.current byte (List.drop_subset _ _ hbyte)
  · rw [hevents, packages_append, hs.packages]
    cases s.frameHandler <;>
      simp [calls, Reception.packages, Piece.package, hs.buffered, List.map_take]
  · intro piece hpiece
    rcases List.mem_append.mp hpiece with hpiece | hpiece
    · exact hs.oneSession piece hpiece
    · obtain rfl := List.mem_singleton.mp hpiece
      exact ⟨s.session, fun byte hbyte => hs.current byte (List.take_subset _ _ hbyte)⟩

end

theorem packages_cleared : packages [.streamCancel, .streamClose] = [] := rfl

/-- `rxBuffer` is added to at its end and taken from at its front, or cleared. -/
theorem cut_step {s t : Transport} {a : Action} {arrived : List (Nat × UInt8)}
    (hs : ∃ pieces rest, Cut s arrived pieces rest) (hstep : step s a = some t) :
    ∃ pieces rest, Cut t (arrived ++ arrivals s a) pieces rest := by
  obtain ⟨pieces, rest, hs⟩ := hs
  have hquiet : arriving a = [] → (∃ pieces rest, Cut t arrived pieces rest) →
      ∃ pieces rest, Cut t (arrived ++ arrivals s a) pieces rest := by
    intro hnone h
    simpa [arrivals, hnone] using h
  cases step_outcome hstep with
  | received bytes hreads => exact ⟨pieces, _, cut_received hs bytes⟩
  | delivered i bytesRead hread hlive =>
      exact hquiet rfl ⟨_, _, cut_delivered hs bytesRead rfl rfl rfl⟩
  | readRecovered i bytesRead hread hlive =>
      exact hquiet rfl ⟨_, _, cut_cleared hs rfl rfl (packages_calls _ rfl)⟩
  | openFailed i outcome newBufferConfig port htask hclosing hstream =>
      exact hquiet rfl ⟨_, _, cut_cleared hs rfl rfl rfl⟩
  | opened i outcome newBufferConfig htask hclosing hport houtcome =>
      exact hquiet rfl ⟨_, _, cut_cleared hs rfl rfl rfl⟩
  | closed i outcome htask hclosing =>
      exact hquiet rfl ⟨_, _, cut_cleared hs rfl rfl rfl⟩
  | readFailed i ec bytesRead hread hlive hsuccess hfatal =>
      refine hquiet rfl ⟨_, _, cut_cleared hs rfl (List.append_assoc _ _ _) ?_⟩
      rw [packages_append, packages_cleared, packages_fatalCalls, List.nil_append]
  | writeRecovered i operation failure hwrite hlive hfailure hnone =>
      refine hquiet rfl ⟨_, _, cut_cleared hs rfl (List.append_assoc _ _ _) ?_⟩
      rw [packages_append, packages_failure hfailure hnone, packages_calls _ rfl,
        List.nil_append]
  | writeFailed i ec operation failure hwrite hlive hsuccess hfatal hfailure hnone =>
      have hevents : s.events ++ failure ++ [.streamCancel, .streamClose] ++
          fatalCalls s.fatalErrorHandler ec = s.events ++ (failure ++
            ([.streamCancel, .streamClose] ++ fatalCalls s.fatalErrorHandler ec)) := by
        simp
      refine hquiet rfl ⟨_, _, cut_cleared hs rfl hevents ?_⟩
      rw [packages_append, packages_append, packages_failure hfailure hnone, packages_cleared,
        packages_fatalCalls, List.nil_append, List.nil_append]
  | writtenNext i operation w next others hwrite hlive hqueue =>
      refine hquiet rfl ⟨_, _, cut_kept hs rfl rfl (List.append_assoc _ _ _) ?_⟩
      rw [packages_append, packages_calls _ rfl]
      rfl
  | writtenLast i operation w hwrite hlive hqueue =>
      exact hquiet rfl ⟨_, _, cut_kept hs rfl rfl rfl (packages_calls _ rfl)⟩
  | cancelled i outcome w htask hdown =>
      exact hquiet rfl ⟨_, _, cut_kept hs rfl rfl rfl (packages_calls _ rfl)⟩
  | refused i caller status hcaller hrefuses =>
      exact hquiet rfl ⟨_, _, cut_kept hs rfl rfl rfl rfl⟩
  | scheduled i caller hcaller hpc => exact hquiet rfl ⟨_, _, cut_kept hs rfl rfl rfl rfl⟩
  | started i outcome w htask hclosing hstopped hidle =>
      exact hquiet rfl ⟨_, _, cut_kept hs rfl rfl rfl rfl⟩
  | _ => exact hquiet rfl ⟨_, _, cut_kept hs rfl rfl (List.append_nil _).symm rfl⟩

/-- In every run, whatever fails and however often the port is opened: the bytes the
stream brought, in order, are those of the packages handed over, those discarded and
those still in `rxBuffer`; no package has bytes of two sessions, and what is in
`rxBuffer` belongs to the session of now. -/
theorem received_of_run {schedule : List Action} {s : Transport}
    (hrun : exec step Transport.init schedule = some s) :
    ∃ pieces rest,
      Cut s (trace step arrivals Transport.init schedule) pieces rest := by
  have h := exec_trace_invariant (C := fun _ _ => True)
    (I := fun s arrived => ∃ pieces rest, Cut s arrived pieces rest)
    (fun _ _ _ _ hs _ hstep => cut_step hs hstep) ⟨[], [], cut_init⟩
    (meets_of_forall (fun _ _ _ => trivial) _) hrun
  simpa using h

/-- The device is unplugged in the middle of a frame, and opened again. -/
def interruptedSchedule : List Action :=
  [.post (.setFrameHandler (some 1)), .run 0 .succeeds, .post (.openPort defaultBufferConfig),
    .run 0 .succeeds, .receive [1, 2, 0, 3], .completeRead 0 .success 3, .receive [4],
    .completeRead 0 .eof 0, .post (.openPort defaultBufferConfig), .run 0 .succeeds,
    .receive [5, 0, 6], .completeRead 0 .success 2]

theorem received_interruptedSchedule :
    ∃ s pieces rest, exec step Transport.init interruptedSchedule = some s ∧
      packages s.events = [[1, 2, 0], [5, 0]] ∧ s.rxBuffer = [6] ∧
      Cut s [(1, 1), (1, 2), (1, 0), (1, 3), (1, 4), (2, 5), (2, 0), (2, 6)] pieces rest := by
  have hrun : ∃ s, exec step Transport.init interruptedSchedule = some s ∧
      packages s.events = [[1, 2, 0], [5, 0]] ∧ s.rxBuffer = [6] :=
    ⟨(exec step Transport.init interruptedSchedule).get (by decide), by simp, by decide,
      by decide⟩
  obtain ⟨s, hexec, hpackages, hbuffer⟩ := hrun
  have harrived : trace step arrivals Transport.init interruptedSchedule =
      [(1, 1), (1, 2), (1, 0), (1, 3), (1, 4), (2, 5), (2, 0), (2, 6)] := by decide
  obtain ⟨pieces, rest, hcut⟩ := received_of_run hexec
  exact ⟨s, pieces, rest, hexec, hpackages, hbuffer, harrived ▸ hcut⟩

end EasyLoRa.ReceivedBytes
