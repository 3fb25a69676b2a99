import PortForward.Proofs.BestEffort
import PortForward.Proofs.CommandLine.Flag

/-!
# The ways of setting up a proxy agree

A pair that two tables accept gets the same route from both, hence the same listen call, the
same proxy and the same failure. The best-effort program goes by the narrower table, but it
refuses the frontends on which the tables differ. So the flag changes nothing, except what is
made of an address that does not exist here.
-/

namespace PortForward

variable {σ : Type} {frontend backend : Address}

namespace Route

namespace Table

/-- Two tables give the same for a pair. -/
structure Agree (table table' : Table) (frontend backend : Address) : Prop where
  route_eq : table.route frontend backend = table'.route frontend backend
  make_eq : ∀ (σ : Type) (b : Binder σ) level s,
    table.make b level frontend backend s = table'.make b level frontend backend s
  calls_eq : ∀ (σ : Type) (b : Binder σ) level s noted,
    table.make b.noting level frontend backend (s, noted) =
      table'.make b.noting level frontend backend (s, noted)

/-- A route from any table is that from the general one. -/
theorem of_eq_of_route (table : Table) {route : Route}
    (h : table.route frontend backend = .ok route) : of frontend backend = .ok route := by
  cases table with
  | any => exact h
  | ip =>
    cases frontend with
    | stream f | datagram f => exact h
    | vsock f =>
      cases backend with
      | stream t => exact h
      | datagram t | vsock t => cases h
  | vsock =>
    cases frontend with
    | vsock f => exact h
    | stream f | datagram f => cases h

theorem agree_of_routes {table table' : Table} {route route' : Route}
    (h : table.route frontend backend = .ok route)
    (h' : table'.route frontend backend = .ok route') :
    table.Agree table' frontend backend := by
  have hroute : table.route frontend backend = table'.route frontend backend := by
    rw [h, h', ← table.of_eq_of_route h, table'.of_eq_of_route h']
  constructor
  case route_eq => exact hroute
  case make_eq =>
    intro σ b level s
    rw [make_eq, make_eq, hroute]
  case calls_eq =>
    intro σ b level s noted
    rw [make_eq, make_eq, hroute]

end Table

theorem of_accepts_iff : (∃ route, of frontend backend = .ok route) ↔
    (∃ route, ofIp frontend backend = .ok route) ∨
      ∃ route, ofVsock frontend backend = .ok route := by
  constructor
  · rintro ⟨route, h⟩
    cases frontend with
    | stream f | datagram f => exact .inl ⟨route, h⟩
    | vsock f => exact .inr ⟨route, h⟩
  · rintro (⟨route, h⟩ | ⟨route, h⟩)
    · exact ⟨route, Table.ip.of_eq_of_route h⟩
    · exact ⟨route, Table.vsock.of_eq_of_route h⟩

theorem of_eq_ofIp (h : frontend.transport ≠ .vsock) :
    of frontend backend = ofIp frontend backend := by
  cases frontend with
  | stream f | datagram f => rfl
  | vsock f => exact absurd rfl h

end Route

namespace CommandLine

namespace Arguments

variable {a : Arguments} {b : Binder σ} {s : σ}

/-- With and without the flag the same listen calls are made, and the same is made of their
answers, unless the address does not exist here. -/
structure MadeAlike (a : Arguments) (b : Binder σ) (s : σ) : Prop where
  calls : ∀ noted, ((a.withBestEffort true).make b.noting (s, noted)).2 =
    ((a.withBestEffort false).make b.noting (s, noted)).2
  alike : ¬ b.Lacks a.frontend a.backend s →
    (a.withBestEffort true).make b s = (a.withBestEffort false).make b s
  skipped : b.Lacks a.frontend a.backend s → ∃ e s',
    b.listen a.frontend.bindCall s = (.error e, s') ∧ e.kind = .addrNotAvailable ∧
      (a.withBestEffort true).make b s = ((.ok none, [.frontendSkipped a.frontend]), s') ∧
      (a.withBestEffort false).make b s = ((.error (.listen a.frontend e), []), s')

/-- A program with the flag and one without do the same with a proxy, fail for the same reason,
and make a success and a failure of an address that does not exist here. -/
structure StartedAlike (a : Arguments) (b : Binder Kernel) (k : Kernel) (flagged plain : Start) :
    Prop where
  running : ∀ p notices k', (a.withBestEffort false).make b k = ((.ok (some p), notices), k') →
    flagged = plain ∧ ∃ kernel world, plain = .running a.level kernel world
  failed : ∀ e notices k', (a.withBestEffort false).make b k = ((.error e, notices), k') →
    ¬ b.Lacks a.frontend a.backend k →
    flagged = .ended (.failure (logLines a.level k' k'.notices) e.message e.causes) ∧
      plain = .ended (.failure (logLines a.level k' k'.notices)
        s!"[ERR] failed to set up {a.frontend.text} -> {a.backend.text}" (e.message :: e.causes))
  skipped : b.Lacks a.frontend a.backend k → ∃ e k',
    b.listen a.frontend.bindCall k = (.error e, k') ∧ e.kind = .addrNotAvailable ∧
      flagged = .ended ⟨0, false,
        logLines a.level k' (k'.notices ++ [.frontendSkipped a.frontend]), ""⟩ ∧
      plain = .ended (.failure (logLines a.level k' k'.notices)
        s!"[ERR] failed to set up {a.frontend.text} -> {a.backend.text}"
        ((Failure.listen a.frontend e).message :: (Failure.listen a.frontend e).causes))

theorem refusal?_withBestEffort_true :
    (a.withBestEffort true).refusal? = none ↔ a.frontend.transport ≠ .vsock := by
  by_cases h : a.frontend.transport = .vsock
  · simp [refusal?, withBestEffort, h]
  · simp [refusal?, withBestEffort, h]

theorem refusal?_withBestEffort_false : (a.withBestEffort false).refusal? = none := by
  simp [refusal?, withBestEffort]

theorem make_withBestEffort_false (h : a.frontend.transport ≠ .vsock) (b : Binder σ) (s : σ) :
    (a.withBestEffort false).make b s =
      (((Proxy.makeIp b a.level a.frontend a.backend s).1.map some, []),
        (Proxy.makeIp b a.level a.frontend a.backend s).2) := by
  have hmake : Proxy.make b a.level a.frontend a.backend s =
      Proxy.makeIp b a.level a.frontend a.backend s := by
    rw [Proxy.make, Route.of_eq_ofIp h, Proxy.makeIp]
  rw [← hmake]
  rfl

theorem madeAlike_of_transport (h : a.frontend.transport ≠ .vsock) (b : Binder σ) (s : σ) :
    MadeAlike a b s := by
  constructor
  case calls =>
    intro noted
    rw [make_withBestEffort_false h]
    exact Proxy.state_of_makeBestEffort b.noting a.level a.frontend a.backend (s, noted)
  case alike =>
    intro hlacks
    rw [make_withBestEffort_false h]
    rcases Proxy.makeBestEffort_cases b a.level a.frontend a.backend s with
      ⟨p, s', hmade, heq, -⟩ | ⟨e, s', -, -, habsent⟩ | ⟨e, s', hmade, heq, -⟩
    · rw [hmade]
      exact heq
    · exact absurd habsent hlacks
    · rw [hmade]
      exact heq
  case skipped =>
    rintro ⟨⟨route, hroute⟩, hip, e, s', hlisten, hkind⟩
    have hmade : Proxy.makeIp b a.level a.frontend a.backend s =
        (.error (.listen a.frontend e), s') :=
      (setUp_of_answers .ip b a.level a.frontend a.backend s).unheard route e s' hroute hlisten
    refine ⟨e, s', hlisten, hkind, ?_, ?_⟩
    · exact Proxy.makeBestEffort_of_isSoft hmade (decide_eq_true ⟨hip, hkind⟩)
    · rw [make_withBestEffort_false h, hmade]
      rfl

theorem startedAlike_of_transport (h : a.frontend.transport ≠ .vsock) (b : Binder Kernel)
    (k : Kernel) : StartedAlike a b k ((a.withBestEffort true).launch b k)
      ((a.withBestEffort false).launch b k) := by
  have halike := madeAlike_of_transport h b k
  have hflagged := refusal?_withBestEffort_true.mpr h
  constructor
  case running =>
    intro p notices k' hmake
    have hlacks : ¬ b.Lacks a.frontend a.backend k := by
      intro hlacks
      obtain ⟨e, s', -, -, -, hfailed⟩ := halike.skipped hlacks
      cases hmake.symm.trans hfailed
    simp only [launch, hflagged, refusal?_withBestEffort_false, halike.alike hlacks, hmake]
    exact ⟨rfl, _, _, rfl⟩
  case failed =>
    intro e notices k' hmake hlacks
    have hquiet : notices = [] := by
      rw [make_withBestEffort_false h] at hmake
      exact (congrArg (·.1.2) hmake).symm
    subst hquiet
    simp only [launch, hflagged, refusal?_withBestEffort_false, halike.alike hlacks, hmake,
      List.append_nil]
    exact ⟨rfl, rfl⟩
  case skipped =>
    intro hlacks
    obtain ⟨e, k', hlisten, hkind, hskipped, hfailed⟩ := halike.skipped hlacks
    refine ⟨e, k', hlisten, hkind, ?_, ?_⟩
    · simp only [launch, hflagged, hskipped]
      rfl
    · simp only [launch, refusal?_withBestEffort_false, hfailed, List.append_nil]
      rfl

end Arguments

/-- Two tables agree on the pairs that both accept, and the general one accepts those of the other
two. A command line for which the flag is not refused sets up and starts the same with the flag and
without, unless the address does not exist here. -/
theorem paths_agree :
    (∀ frontend backend, (∃ route, Route.of frontend backend = .ok route) ↔
      (∃ route, Route.ofIp frontend backend = .ok route) ∨
        ∃ route, Route.ofVsock frontend backend = .ok route) ∧
    (∀ (table table' : Route.Table) frontend backend,
      (∃ route, table.route frontend backend = .ok route) →
      (∃ route, table'.route frontend backend = .ok route) →
      table.Agree table' frontend backend) ∧
    ∀ a : Arguments, (a.withBestEffort true).refusal? = none →
      (∀ (σ : Type) (b : Binder σ) s, a.MadeAlike b s) ∧
      (∀ b k, a.StartedAlike b k ((a.withBestEffort true).launch b k)
        ((a.withBestEffort false).launch b k)) ∧
      (∀ host argv argv', Arguments.read argv = .ok (a.withBestEffort true) →
        Arguments.read argv' = .ok (a.withBestEffort false) →
        a.StartedAlike (.system a.level) (.fresh host []) (start host argv)
          (start host argv')) ∧
      ∀ argv, Arguments.read argv = .ok (a.withBestEffort false) →
        Arguments.read ("--best-effort" :: argv) = .ok (a.withBestEffort true) := by
  refine ⟨fun _ _ => Route.of_accepts_iff, ?_, ?_⟩
  · rintro table table' frontend backend ⟨route, h⟩ ⟨route', h'⟩
    exact Route.Table.agree_of_routes h h'
  · intro a haccepted
    have hip := Arguments.refusal?_withBestEffort_true.mp haccepted
    refine ⟨fun σ b s => Arguments.madeAlike_of_transport hip b s,
      fun b k => Arguments.startedAlike_of_transport hip b k, ?_, ?_⟩
    · intro host argv argv' hflagged hplain
      rw [start, start, hflagged, hplain]
      exact Arguments.startedAlike_of_transport hip (.system a.level) (.fresh host [])
    · intro argv hplain
      exact Arguments.read_flag (a := a.withBestEffort false) hplain rfl

/-- A TCP frontend that the host does not have: skipped with the flag, and fatal without. -/
theorem paths_agree_absent_frontend :
    let frontend : Address := .stream (.v6 .loopback 80 0 0)
    let backend : Address := .stream (.v4 .loopback 90)
    let argv := ["-f", "tcp:[::1]:80", "-b", "tcp:127.0.0.1:90"]
    Route.Table.ip.Agree .vsock (.vsock ⟨.any, 5000⟩) backend ∧
      start .isolated ("--best-effort" :: argv) = .ended ⟨0, false,
        logLines .info (.fresh .isolated []) [.frontendSkipped frontend], ""⟩ ∧
      start .isolated argv = .ended (.failure []
        "[ERR] failed to set up tcp:[::1]:80 -> tcp:127.0.0.1:90"
        [(Failure.listen frontend (.os 99)).message, (IoError.os 99).message]) := by
  intro frontend backend argv
  let a : Arguments := ⟨frontend, backend, false, 90, false⟩
  obtain ⟨-, htables, hprogram⟩ := paths_agree
  have hread : Arguments.read argv = .ok (a.withBestEffort false) := rfl
  obtain ⟨-, -, hstart, hflag⟩ := hprogram a rfl
  refine ⟨htables .ip .vsock _ backend ⟨_, rfl⟩ ⟨_, rfl⟩, ?_⟩
  have hlisten : (Binder.system .info).listen frontend.bindCall (.fresh .isolated []) =
      (.error (.os 99), .fresh .isolated []) := rfl
  have hlacks : (Binder.system .info).Lacks frontend backend (.fresh .isolated []) :=
    ⟨⟨_, rfl⟩, nofun, _, _, hlisten, rfl⟩
  obtain ⟨e, k', hfailed, -, hflagged, hplain⟩ :=
    (hstart .isolated _ argv (hflag argv hread) hread).skipped hlacks
  cases hlisten.symm.trans hfailed
  refine ⟨hflagged, hplain.trans ?_⟩
  have htext : s!"[ERR] failed to set up {frontend.text} -> {backend.text}" =
      "[ERR] failed to set up tcp:[::1]:80 -> tcp:127.0.0.1:90" := by decide +kernel
  rw [← htext]
  rfl

end CommandLine

end PortForward
