import PortForward.Proofs.Datagram.Settling
import PortForward.Proofs.Loop

/-!
# The life of a proxy

What holds of the calls of `run` and `close` over whole runs, for every kind of proxy. Only
the first call of `run` can start the loop; all later ones find the slot empty and are refused,
and a refused call leaves no trace but its answer. A loop that ends leaves a closed proxy
behind, be it that it saw the close or that its failure has closed the proxy.

Between the failure of a datagram listener and the return of its run lies one more step. In it
the run still counts as running, and a further call is answered accordingly. The run of a datagram
proxy does not wait for its reply tasks, and those hold the frontend until they have ended.
-/

namespace PortForward

def Run.isRefused : Run → Bool
  | failed .alreadyStarted | failed .closed => true
  | _ => false

/-- A call that had started has returned. -/
def Run.hasReturned : Run → Bool
  | stopped | failed (.io _) => true
  | _ => false

namespace Proxy

open Service (LoopStep Ends)

def IsQuiet (p : Proxy) : Prop := p.service.IsQuiet p.isClosed

/-- The proxy can come to rest on its own. -/
def Settles (p : Proxy) : Prop :=
  ∃ (own : List Service.Event) (q : Proxy) (late : List Effect),
    (∀ event ∈ own, event.isOwn) ∧ p.runAll (own.map .service) = some (q, late) ∧ q.IsQuiet

/-- The proxy can let go of its frontend on its own. -/
def Unbinds (p : Proxy) : Prop :=
  ∃ (own : List Service.Event) (q : Proxy) (late : List Effect),
    (∀ event ∈ own, event.isOwn) ∧ p.runAll (own.map .service) = some (q, late) ∧
      q.isBound = false

/-- What is known of the end to which a loop comes. -/
def Accounted (events : List Event) (closed : Bool) : LoopEnd → Prop
  | .closed => closed = true
  | .failed e => ∃ event, .service event ∈ events ∧ event.failure? = some e

/-- How the gate, the runs and the loop of a proxy go together after a list of events. -/
structure Governed (events : List Event) (p : Proxy) : Prop where
  full_iff : p.gate.slot.isSome ↔ p.runs = [] ∧ p.isClosed = false
  refused : ∀ run ∈ p.runs.tail, run.isRefused
  running_iff : .running ∈ p.runs ↔ p.service.isLooping
  closed_or_looping : p.runs ≠ [] → p.isClosed ∨ p.service.isLooping
  accounted : ∀ loopEnd, p.service.leaving? = some loopEnd → Accounted events p.isClosed loopEnd
  closed_iff : p.isClosed ↔ .close ∈ events ∨ ∃ e, .failed (.io e) ∈ p.runs
  stopped : .stopped ∈ p.runs → .close ∈ events
  failed : ∀ e, .failed (.io e) ∈ p.runs → Accounted events p.isClosed (.failed e)
  noticed : ∀ event e, .service event ∈ events → event.failure? = some e →
    p.isClosed ∨ p.service.leaving? = some (.failed e)

variable {p q : Proxy} {events : List Event} {event : Event} {effects : List Effect}

theorem Accounted.mono {closed closed' : Bool} {loopEnd : LoopEnd}
    (h : Accounted events closed loopEnd) (hclosed : closed = true → closed' = true)
    (more : List Event) : Accounted (events ++ more) closed' loopEnd := by
  cases loopEnd with
  | closed => exact hclosed h
  | failed e =>
    obtain ⟨event, hmem, he⟩ := h
    exact ⟨event, List.mem_append_left _ hmem, he⟩

theorem accounted_of_ends {event : Service.Event} {closed : Bool} {loopEnd : LoopEnd}
    (h : Ends closed event loopEnd) : Accounted (events ++ [.service event]) closed loopEnd := by
  cases h with
  | closed hclosed => exact hclosed
  | failed he => exact ⟨event, List.mem_append_right _ List.mem_cons_self, he⟩

theorem governed_bound {frontend : Address} {service : Service} (h : service.IsFresh) :
    Governed [] (bound frontend service) := by
  have hloop : service.isLooping = false ∧ service.leaving? = none := by
    cases h <;> exact ⟨rfl, rfl⟩
  constructor
  case full_iff => exact iff_of_true rfl ⟨rfl, rfl⟩
  case refused => simp [bound]
  case running_iff => simp [bound, hloop.1]
  case closed_or_looping => exact fun hne => absurd rfl hne
  case accounted =>
    intro loopEnd hleaving
    cases hloop.2.symm.trans hleaving
  case closed_iff => simp [bound, isClosed, Gate.fresh]
  case stopped => simp [bound]
  case failed => simp [bound]
  case noticed => simp

theorem mem_runs_finish {loopEnd : LoopEnd} {run : Run} :
    run ∈ (p.finish loopEnd).1.runs ↔
      (run ∈ p.runs ∧ run ≠ .running) ∨ (.running ∈ p.runs ∧ run = .ofResult loopEnd.result) := by
  simp only [finish, List.mem_map]
  constructor
  · rintro ⟨run', hmem, rfl⟩
    by_cases hrunning : run' = .running
    · subst hrunning
      exact .inr ⟨hmem, if_pos rfl⟩
    · rw [if_neg hrunning]
      exact .inl ⟨hmem, hrunning⟩
  · rintro (⟨hmem, hne⟩ | ⟨hmem, rfl⟩)
    · exact ⟨run, hmem, if_neg hne⟩
    · exact ⟨.running, hmem, if_pos rfl⟩

theorem isClosed_finish {loopEnd : LoopEnd} (h : loopEnd = .closed → p.isClosed = true) :
    (p.finish loopEnd).1.isClosed = true := by
  cases loopEnd with
  | closed => exact h rfl
  | failed e => rfl

namespace Governed

/-- Of the runs no two are started ones. -/
theorem eq_of_started (h : Governed events p) {run run' : Run} (hrun : run ∈ p.runs)
    (hrun' : run' ∈ p.runs) (hstarted : run.isRefused = false)
    (hstarted' : run'.isRefused = false) : run = run' := by
  have hrefused := h.refused
  cases hruns : p.runs with
  | nil => simp [hruns] at hrun
  | cons first rest =>
    rw [hruns] at hrun hrun' hrefused
    have hhead : ∀ run ∈ first :: rest, run.isRefused = false → run = first := by
      intro run hmem hnot
      rcases List.mem_cons.mp hmem with heq | hmem
      · exact heq
      · rw [hrefused run hmem] at hnot
        cases hnot
    rw [hhead run hrun hstarted, hhead run' hrun' hstarted']

theorem not_looping_of_returned (h : Governed events p) {run : Run} (hrun : run ∈ p.runs)
    (hreturned : run.hasReturned) : p.service.isLooping = false := by
  have hstarted : run.isRefused = false := by
    cases run with
    | failed e => cases e <;> first | rfl | cases hreturned
    | _ => rfl
  rw [Bool.eq_false_iff]
  intro hlooping
  cases h.eq_of_started hrun (h.running_iff.mpr hlooping) hstarted rfl
  cases hreturned

theorem slot_eq_none (h : Governed events p) (hcond : p.runs ≠ [] ∨ p.isClosed = true) :
    p.gate.slot = none := by
  by_contra hne
  obtain ⟨hruns, hopen⟩ := h.full_iff.mp (Option.isSome_iff_ne_none.mpr hne)
  rcases hcond with hcond | hcond
  · exact hcond hruns
  · cases hopen.symm.trans hcond

theorem emptySlot_eq (h : Governed events p) (hcond : p.runs ≠ [] ∨ p.isClosed = true) :
    p.gate.emptySlot = p.gate := by
  rw [Gate.emptySlot, ← h.slot_eq_none hcond]

/-- A refused call of `run` changes nothing but the list of runs. -/
theorem run_of_closed (h : Governed events p) (hclosed : p.isClosed = true) :
    p.run = ({ p with runs := p.runs ++ [.failed .closed] }, []) := by
  have hgate := h.emptySlot_eq (.inr hclosed)
  have hcancelled : p.gate.cancelled = true := hclosed
  simp only [run, Gate.start, Gate.verdict, hcancelled, if_true, hgate]

theorem run_of_started (h : Governed events p) (hopen : p.isClosed = false) (hne : p.runs ≠ []) :
    p.run = ({ p with runs := p.runs ++ [.failed .alreadyStarted] }, []) := by
  have hgate := h.emptySlot_eq (.inl hne)
  have hslot := h.slot_eq_none (.inl hne)
  have hcancelled : p.gate.cancelled = false := hopen
  simp only [run, Gate.start, Gate.verdict, hcancelled, hslot, hgate]
  rfl

theorem run_of_first (h : Governed events p) (hopen : p.isClosed = false) (hnil : p.runs = []) :
    p.run = ({ p with
      gate := p.gate.emptySlot, runs := [.running], service := p.service.start },
      [.log (p.service.runningNotice p.frontend)]) := by
  obtain ⟨listener, hslot⟩ := Option.isSome_iff_exists.mp (h.full_iff.mpr ⟨hnil, hopen⟩)
  have hcancelled : p.gate.cancelled = false := hopen
  simp only [run, Gate.start, Gate.verdict, hcancelled, hslot, hnil]
  rfl

theorem refuse (h : Governed events p) {e : Failure} (he : (Run.failed e).isRefused = true)
    (hcond : p.runs ≠ [] ∨ p.isClosed = true) :
    Governed (events ++ [.run]) { p with runs := p.runs ++ [.failed e] } := by
  have hnot : ∀ run, run ∈ p.runs ++ [.failed e] → run.isRefused = false → run ∈ p.runs := by
    intro run hmem hstarted
    rcases List.mem_append.mp hmem with hmem | hmem
    · exact hmem
    · cases List.mem_singleton.mp hmem
      cases he.symm.trans hstarted
  have hold : ∀ event, .service event ∈ events ++ [Event.run] → .service event ∈ events := by
    intro event hmem
    simpa using hmem
  constructor
  case full_iff =>
    rw [h.slot_eq_none hcond]
    simp
  case refused =>
    intro run hmem
    cases hruns : p.runs with
    | nil => simp [hruns] at hmem
    | cons first rest =>
      simp only [hruns, List.cons_append, List.tail_cons] at hmem
      rcases List.mem_append.mp hmem with hmem | hmem
      · exact h.refused run (by simpa [hruns] using hmem)
      · cases List.mem_singleton.mp hmem
        exact he
  case running_iff =>
    rw [← h.running_iff]
    exact ⟨fun hmem => hnot _ hmem rfl, List.mem_append_left _⟩
  case closed_or_looping =>
    intro _
    rcases hcond with hne | hclosed
    · exact h.closed_or_looping hne
    · exact .inl hclosed
  case accounted => exact fun loopEnd hleaving => (h.accounted loopEnd hleaving).mono id _
  case closed_iff =>
    refine Iff.trans h.closed_iff ?_
    constructor
    · rintro (hclose | ⟨cause, hmem⟩)
      · exact .inl (List.mem_append_left _ hclose)
      · exact .inr ⟨cause, List.mem_append_left _ hmem⟩
    · rintro (hclose | ⟨cause, hmem⟩)
      · exact .inl (by simpa using hclose)
      · exact .inr ⟨cause, hnot _ hmem rfl⟩
  case stopped => exact fun hmem => List.mem_append_left _ (h.stopped (hnot _ hmem rfl))
  case failed => exact fun cause hmem => (h.failed cause (hnot _ hmem rfl)).mono id _
  case noticed => exact fun event cause hmem he => h.noticed event cause (hold event hmem) he

theorem started (h : Governed events p) (hopen : p.isClosed = false) (hnil : p.runs = []) :
    Governed (events ++ [.run])
      { p with gate := p.gate.emptySlot, runs := [.running], service := p.service.start } := by
  have hold : ∀ event, .service event ∈ events ++ [Event.run] → .service event ∈ events := by
    intro event hmem
    simpa using hmem
  have hidle : p.service.leaving? = none := by
    cases hleaving : p.service.leaving? with
    | none => rfl
    | some loopEnd =>
      have hmem := h.running_iff.mpr (Service.isLooping_of_leaving hleaving)
      simp [hnil] at hmem
  have hloop : p.service.start.isLooping = true ∧ p.service.start.leaving? = none := by
    cases hservice : p.service <;> exact ⟨rfl, rfl⟩
  constructor
  case full_iff => simp [Gate.emptySlot]
  case refused => simp
  case running_iff => simp [hloop.1]
  case closed_or_looping => exact fun _ => .inr hloop.1
  case accounted =>
    intro loopEnd hsome
    cases hloop.2.symm.trans hsome
  case closed_iff =>
    have hcancelled : p.gate.cancelled = false := hopen
    have hclosed := h.closed_iff
    simp only [hopen, hnil] at hclosed
    simpa [isClosed, Gate.emptySlot, hcancelled] using hclosed
  case stopped => simp
  case failed => simp
  case noticed =>
    intro event e hmem he
    rcases h.noticed event e (hold event hmem) he with hclosed | hleaving
    · cases hopen.symm.trans hclosed
    · cases hidle.symm.trans hleaving

theorem close (h : Governed events p) : Governed (events ++ [.close]) p.close := by
  constructor
  case full_iff => simp [Proxy.close, Gate.close, Gate.emptySlot, isClosed, Gate.cancel]
  case refused => exact h.refused
  case running_iff => exact h.running_iff
  case closed_or_looping => exact fun _ => .inl rfl
  case accounted => exact fun loopEnd hleaving => (h.accounted loopEnd hleaving).mono (fun _ => rfl) _
  case closed_iff => exact iff_of_true rfl (.inl (List.mem_append_right _ List.mem_cons_self))
  case stopped => exact fun hmem => List.mem_append_left _ (h.stopped hmem)
  case failed => exact fun e hmem => (h.failed e hmem).mono (fun _ => rfl) _
  case noticed => exact fun _ _ _ _ => .inl rfl

section Service

variable {event : Service.Event} {next : Service}

/-- A step in which the loop goes on, or leaves and does not tell yet. -/
theorem goOn (h : Governed events p) (hloop : next.isLooping = p.service.isLooping)
    (hstays : ∀ loopEnd, p.service.leaving? = some loopEnd → next.leaving? = some loopEnd)
    (haccounted : ∀ loopEnd, next.leaving? = some loopEnd →
      Accounted (events ++ [.service event]) p.isClosed loopEnd)
    (hnoticed : ∀ e, event.failure? = some e → next.leaving? = some (.failed e)) :
    Governed (events ++ [.service event]) { p with service := next } := by
  constructor
  case full_iff => exact h.full_iff
  case refused => exact h.refused
  case running_iff => exact h.running_iff.trans (iff_of_eq (congrArg (· = true) hloop.symm))
  case closed_or_looping =>
    intro hne
    rw [hloop]
    exact h.closed_or_looping hne
  case accounted => exact haccounted
  case closed_iff =>
    have hclosed := h.closed_iff
    simpa [isClosed] using hclosed
  case stopped => exact fun hmem => List.mem_append_left _ (h.stopped hmem)
  case failed => exact fun e hmem => (h.failed e hmem).mono id _
  case noticed =>
    intro event' e hmem he
    rcases List.mem_append.mp hmem with hmem | hmem
    · rcases h.noticed event' e hmem he with hclosed | hleaving
      · exact .inl hclosed
      · exact .inr (hstays _ hleaving)
    · cases List.mem_singleton.mp hmem
      exact .inr (hnoticed e he)

/-- A step in which the run returns. -/
theorem finish (h : Governed events p) {loopEnd : LoopEnd} (hlooping : p.service.isLooping = true)
    (hover : next.isLooping = false) (hgone : next.leaving? = none)
    (haccounted : Accounted (events ++ [.service event]) p.isClosed loopEnd) :
    Governed (events ++ [.service event]) ({ p with service := next }.finish loopEnd).1 := by
  have hrunning : .running ∈ p.runs := h.running_iff.mpr hlooping
  have hne : p.runs ≠ [] := List.ne_nil_of_mem hrunning
  have hclosed : ({ p with service := next }.finish loopEnd).1.isClosed = true := by
    apply isClosed_finish
    rintro rfl
    exact haccounted
  -- A run that was started before is the one that is returning.
  have hstarted : ∀ run ∈ ({ p with service := next }.finish loopEnd).1.runs,
      run.isRefused = false → run = .ofResult loopEnd.result := by
    intro run hmem hstarted
    rcases mem_runs_finish.mp hmem with ⟨hmem, hnot⟩ | ⟨-, heq⟩
    · exact absurd (h.eq_of_started hmem hrunning hstarted rfl) hnot
    · exact heq
  have hresult : .ofResult loopEnd.result ∈ ({ p with service := next }.finish loopEnd).1.runs :=
    mem_runs_finish.mpr (.inr ⟨hrunning, rfl⟩)
  constructor
  case full_iff =>
    have hslot : ({ p with service := next }.finish loopEnd).1.gate.slot = none := by
      cases loopEnd with
      | closed => exact h.slot_eq_none (.inl hne)
      | failed e => rfl
    rw [hslot, hclosed]
    simp
  case refused =>
    intro run hmem
    simp only [Proxy.finish, ← List.map_tail, List.mem_map] at hmem
    obtain ⟨run', hmem, rfl⟩ := hmem
    have hrefused := h.refused run' hmem
    split
    · rename_i heq
      rw [heq] at hrefused
      cases hrefused
    · exact hrefused
  case running_iff =>
    refine iff_of_false ?_ ?_
    · intro hmem
      have heq := hstarted _ hmem rfl
      cases loopEnd <;> cases heq
    · have hafter : ({ p with service := next } : Proxy).service = next := rfl
      rw [Proxy.finish, hafter, hover]
      exact Bool.false_ne_true
  case closed_or_looping => exact fun _ => .inl hclosed
  case accounted =>
    intro loopEnd' hleaving
    cases hgone.symm.trans hleaving
  case closed_iff =>
    refine iff_of_true hclosed ?_
    cases loopEnd with
    | failed e => exact .inr ⟨e, hresult⟩
    | closed =>
      rcases h.closed_iff.mp haccounted with hclose | ⟨e, hmem⟩
      · exact .inl (List.mem_append_left _ hclose)
      · cases h.eq_of_started hmem hrunning rfl rfl
  case stopped =>
    intro hmem
    have heq := hstarted _ hmem rfl
    cases loopEnd with
    | failed e => cases heq
    | closed =>
      rcases h.closed_iff.mp haccounted with hclose | ⟨e, hmem⟩
      · exact List.mem_append_left _ hclose
      · cases h.eq_of_started hmem hrunning rfl rfl
  case failed =>
    intro e hmem
    have heq := hstarted _ hmem rfl
    cases loopEnd with
    | closed => cases heq
    | failed e' =>
      cases heq
      exact haccounted
  case noticed => exact fun _ _ _ _ => .inl hclosed

end Service

theorem service (h : Governed events p) {event : Service.Event}
    (hstep : p.step (.service event) = some (q, effects)) :
    Governed (events ++ [.service event]) q := by
  obtain ⟨turn, hturn, hq⟩ := step_service hstep
  cases Service.loopStep_of_step hturn with
  | kept hquiet hend hloop hleaving =>
    rcases hq with ⟨-, rfl, -⟩ | ⟨loopEnd, hsome, -, -⟩
    · refine h.goOn hloop ?_ ?_ ?_
      · exact fun loopEnd hsome => hleaving.trans hsome
      · exact fun loopEnd hsome => (h.accounted loopEnd (hleaving.symm.trans hsome)).mono id _
      · exact fun e he => nomatch hquiet.symm.trans he
    · cases hend.symm.trans hsome
  | left hends hlooping hnot hend hloop hleaving =>
    rcases hq with ⟨-, rfl, -⟩ | ⟨loopEnd, hsome, -, -⟩
    · refine h.goOn (hloop.trans hlooping.symm) ?_ ?_ ?_
      · exact fun loopEnd hsome => nomatch hnot.symm.trans hsome
      · intro loopEnd hsome
        cases hleaving.symm.trans hsome
        exact accounted_of_ends hends
      · intro e he
        cases hends with
        | closed _ hquiet => cases hquiet.symm.trans he
        | failed hfailed =>
          cases hfailed.symm.trans he
          exact hleaving
    · cases hend.symm.trans hsome
  | told hquiet hlooping hleaving hend hover hgone =>
    rcases hq with ⟨hnone, -, -⟩ | ⟨loopEnd, hsome, rfl, -⟩
    · cases hnone.symm.trans hend
    · cases hend.symm.trans hsome
      exact h.finish hlooping hover hgone ((h.accounted _ hleaving).mono id _)
  | ended hends hlooping hnot hend hover hgone =>
    rcases hq with ⟨hnone, -, -⟩ | ⟨loopEnd, hsome, rfl, -⟩
    · cases hnone.symm.trans hend
    · cases hend.symm.trans hsome
      exact h.finish hlooping hover hgone (accounted_of_ends hends)

theorem step (h : Governed events p) (hstep : p.step event = some (q, effects)) :
    Governed (events ++ [event]) q := by
  cases event with
  | run =>
    have hrun : p.run = (q, effects) := Option.some.inj hstep
    by_cases hclosed : p.isClosed = true
    · cases (h.run_of_closed hclosed).symm.trans hrun
      exact h.refuse rfl (.inr hclosed)
    · have hopen : p.isClosed = false := by simpa using hclosed
      by_cases hnil : p.runs = []
      · cases (h.run_of_first hopen hnil).symm.trans hrun
        exact h.started hopen hnil
      · cases (h.run_of_started hopen hnil).symm.trans hrun
        exact h.refuse rfl (.inl hnil)
  | close =>
    cases hstep
    exact h.close
  | service event => exact h.service hstep

end Governed

theorem governed_of_runAll {frontend : Address} {service : Service} (hfresh : service.IsFresh)
    (h : (bound frontend service).runAll events = some (p, effects)) : Governed events p :=
  runAll_induction (governed_bound hfresh) (fun hgoverned => hgoverned.step) h

theorem isClosed_of_step (h : p.step event = some (q, effects)) (hclosed : p.isClosed = true) :
    q.isClosed = true := by
  cases event with
  | run =>
    have hrun : p.run = (q, effects) := Option.some.inj h
    rcases p.run_cases with ⟨hopen, -, -⟩ | ⟨e, heq⟩
    · cases hopen.symm.trans hclosed
    · cases heq.symm.trans hrun
      exact hclosed
  | close =>
    cases h
    rfl
  | service event =>
    obtain ⟨turn, -, ⟨-, rfl, -⟩ | ⟨loopEnd, -, rfl, -⟩⟩ := step_service h
    · exact hclosed
    · exact isClosed_finish fun _ => hclosed

theorem slot_of_step (h : p.step event = some (q, effects)) (hslot : p.gate.slot = none) :
    q.gate.slot = none := by
  cases event with
  | run =>
    have hrun : p.run = (q, effects) := Option.some.inj h
    rcases p.run_cases with ⟨-, -, heq⟩ | ⟨e, heq⟩
    · cases heq.symm.trans hrun
      rfl
    · cases heq.symm.trans hrun
      rfl
  | close =>
    cases h
    rfl
  | service event =>
    obtain ⟨turn, -, ⟨-, rfl, -⟩ | ⟨loopEnd, -, rfl, -⟩⟩ := step_service h
    · exact hslot
    · cases loopEnd with
      | closed => exact hslot
      | failed => rfl

theorem isClosed_of_runAll (h : p.runAll events = some (q, effects)) (hclosed : p.isClosed = true) :
    q.isClosed = true := by
  refine runAll_induction (motive := fun _ q => q.isClosed = true) hclosed ?_ h
  exact fun hclosed hstep => isClosed_of_step hstep hclosed

theorem close_of_closed (hgoverned : Governed events p) (hclosed : p.isClosed = true) :
    p.close = p := by
  have hslot := hgoverned.slot_eq_none (.inr hclosed)
  have hgate : p.gate.close = p.gate := by
    rw [Gate.close, Gate.cancel, Gate.emptySlot, ← hslot, ← show p.gate.cancelled = true from hclosed]
  rw [Proxy.close, hgate]

/-- A closed proxy with nothing left to do has let go of its frontend. -/
theorem not_bound_of_quiet (hgoverned : Governed events p) (hquiet : p.IsQuiet)
    (hclosed : p.isClosed = true) : p.isBound = false := by
  rw [IsQuiet, hclosed] at hquiet
  rw [isBound, hgoverned.slot_eq_none (.inr hclosed), hquiet.not_holding]
  rfl

/-- What holds of the calls on a proxy after a list of events, and of the next call. -/
structure LifeCycle (events : List Event) (p : Proxy) : Prop where
  one_running : p.runs.count .running ≤ 1
  /-- the first of all runs starts, on a proxy that is not closed -/
  starts : p.isClosed = false → p.runs = [] →
    p.run = ({ p with
      gate := p.gate.emptySlot, runs := [.running], service := p.service.start },
      [.log (p.service.runningNotice p.frontend)])
  /-- any other finds one running, and nothing changes but the list of runs -/
  rejects_started : p.isClosed = false → p.runs ≠ [] → .running ∈ p.runs ∧
    p.run = ({ p with runs := p.runs ++ [.failed .alreadyStarted] }, [])
  rejects_closed : p.isClosed = true →
    p.run = ({ p with runs := p.runs ++ [.failed .closed] }, [])
  closed_iff : p.isClosed ↔ .close ∈ events ∨ ∃ e, .failed (.io e) ∈ p.runs
  /-- the run that is to return with the failure has at least one step left -/
  closed_of_failure : ∀ event e, .service event ∈ events → event.failure? = some e →
    p.isClosed ∨ .running ∈ p.runs ∧ p.service.leaving? = some (.failed e) ∧ ¬ p.IsQuiet
  open_of_running : p.IsQuiet → .running ∈ p.runs → p.isClosed = false
  ok_of_close : .stopped ∈ p.runs → .close ∈ events
  error_of_failure : ∀ e, .failed (.io e) ∈ p.runs →
    ∃ event, .service event ∈ events ∧ event.failure? = some e
  closed_of_returned : ∀ run ∈ p.runs, run.hasReturned → p.isClosed
  /-- tasks of a datagram relay may hold the frontend until they have ended, too -/
  unbound_of_returned : ∀ run ∈ p.runs, run.hasReturned →
    (p.isBound ↔ ∃ r, p.service = .datagram r ∧ r.tasks ≠ []) ∧
      (p.IsQuiet → p.isBound = false) ∧ p.Unbinds
  stays_closed : p.isClosed → ∀ more q late, p.runAll more = some (q, late) → q.isClosed
  close_again : p.isClosed → p.step .close = some (p, [])

namespace Governed

theorem count_running (h : Governed events p) : p.runs.count .running ≤ 1 := by
  have htail : p.runs.tail.count .running = 0 := by
    apply List.count_eq_zero.mpr
    intro hmem
    cases h.refused _ hmem
  cases hruns : p.runs with
  | nil => exact Nat.zero_le 1
  | cons first rest =>
    rw [hruns, List.tail_cons] at htail
    rw [List.count_cons, htail]
    split <;> omega

theorem closed_of_returned (h : Governed events p) {run : Run} (hrun : run ∈ p.runs)
    (hreturned : run.hasReturned) : p.isClosed = true := by
  rcases h.closed_or_looping (List.ne_nil_of_mem hrun) with hclosed | hlooping
  · exact hclosed
  · cases (h.not_looping_of_returned hrun hreturned).symm.trans hlooping

theorem isBound_of_returned (h : Governed events p) {run : Run} (hrun : run ∈ p.runs)
    (hreturned : run.hasReturned) : p.isBound ↔ ∃ r, p.service = .datagram r ∧ r.tasks ≠ [] := by
  have hidle := h.not_looping_of_returned hrun hreturned
  have hslot := h.slot_eq_none (.inl (List.ne_nil_of_mem hrun))
  rw [isBound, hslot]
  cases hservice : p.service with
  | stream s | framed s =>
    rw [hservice] at hidle
    have haccepting : s.accepting = false := hidle
    simp [Service.holdsFrontend, haccepting]
  | datagram r =>
    rw [hservice] at hidle
    have hloop : r.loop.isAtWork = false := hidle
    cases hphase : r.loop with
    | idle | ended => simp [Service.holdsFrontend, DatagramRelay.holdsFrontend, hphase]
    | _ => simp [hphase, LoopPhase.isAtWork] at hloop

theorem closed_of_failure (h : Governed events p) {event : Service.Event} {e : IoError}
    (hmem : .service event ∈ events) (he : event.failure? = some e) :
    p.isClosed ∨ .running ∈ p.runs ∧ p.service.leaving? = some (.failed e) ∧ ¬ p.IsQuiet := by
  rcases h.noticed event e hmem he with hclosed | hleaving
  · exact .inl hclosed
  · have hlooping := Service.isLooping_of_leaving hleaving
    refine .inr ⟨h.running_iff.mpr hlooping, hleaving, ?_⟩
    intro hquiet
    cases (hquiet.of_looping hlooping).2.symm.trans hleaving

end Governed

theorem settles_of_datagram {frontend : Address} {backend : SocketAddress} {level : Level}
    {timeout : Nat} {past : List (Moment DatagramRelay)} {r : DatagramRelay}
    (h : History .datagram (.ofDatagrams frontend backend level timeout) past p r) :
    p.Settles := by
  obtain ⟨own, q, r', late, hown, hrun, hq, hquiet⟩ := exists_quiet h
  refine ⟨own.map .datagram, q, late, ?_, ?_, ?_⟩
  · intro event hmem
    obtain ⟨e, he, rfl⟩ := List.mem_map.mp hmem
    exact hown e he
  · rw [List.map_map]
    exact hrun
  · rw [IsQuiet, hq]
    exact Service.isQuiet_datagram.mpr hquiet

/-- The tasks that still hold the frontend when a run has returned can end on their own. -/
theorem unbinds_of_closed {frontend : Address} {service : Service} (hfresh : service.IsFresh)
    (h : (bound frontend service).runAll events = some (p, effects))
    (hbound : p.isBound ↔ ∃ r, p.service = .datagram r ∧ r.tasks ≠ [])
    (hclosed : p.isClosed = true) : p.Unbinds := by
  by_cases hfree : p.isBound = false
  · exact ⟨[], p, [], nofun, rfl, hfree⟩
  obtain ⟨r, hr, -⟩ := hbound.mp (by simpa using hfree)
  cases hfresh with
  | stream backend =>
    obtain ⟨past, s, hist, -, -⟩ := exists_history Service.isKind_stream rfl h
    cases hr.symm.trans hist.service_eq
  | framed backend =>
    obtain ⟨past, s, hist, -, -⟩ := exists_history Service.isKind_framed rfl h
    cases hr.symm.trans hist.service_eq
  | datagram backend level timeout =>
    obtain ⟨past, s, hist, rfl, -⟩ := exists_history Service.isKind_datagram rfl h
    obtain ⟨own, q, late, hown, hrun, hquiet⟩ := settles_of_datagram hist
    have hgoverned : Governed _ q :=
      governed_of_runAll (.datagram backend level timeout) (runAll_trans h hrun)
    exact ⟨own, q, late, hown, hrun,
      not_bound_of_quiet hgoverned hquiet (isClosed_of_runAll hrun hclosed)⟩

/-- Whatever is done with a proxy, its runs keep to the rules: one at a time and one in all,
ended by a close or by a failed listener, after which it is closed for good. -/
theorem lifeCycle_of_runAll {made : Proxy} (hnew : made.IsNew)
    (h : made.runAll events = some (p, effects)) : LifeCycle events p := by
  obtain ⟨frontend, service, rfl, hfresh⟩ := hnew
  have hgoverned := governed_of_runAll hfresh h
  constructor
  case one_running => exact hgoverned.count_running
  case starts => exact hgoverned.run_of_first
  case rejects_started =>
    intro hopen hne
    refine ⟨?_, hgoverned.run_of_started hopen hne⟩
    rcases hgoverned.closed_or_looping hne with hclosed | hlooping
    · cases hopen.symm.trans hclosed
    · exact hgoverned.running_iff.mpr hlooping
  case rejects_closed => exact hgoverned.run_of_closed
  case closed_iff => exact hgoverned.closed_iff
  case closed_of_failure => exact fun event e hmem he => hgoverned.closed_of_failure hmem he
  case open_of_running =>
    intro hquiet hrunning
    exact (hquiet.of_looping (hgoverned.running_iff.mp hrunning)).1
  case ok_of_close => exact hgoverned.stopped
  case error_of_failure => exact hgoverned.failed
  case closed_of_returned => exact fun run hrun => hgoverned.closed_of_returned hrun
  case unbound_of_returned =>
    intro run hrun hreturned
    have hclosed := hgoverned.closed_of_returned hrun hreturned
    refine ⟨hgoverned.isBound_of_returned hrun hreturned, ?_, ?_⟩
    · exact fun hquiet => not_bound_of_quiet hgoverned hquiet hclosed
    · exact unbinds_of_closed hfresh h (hgoverned.isBound_of_returned hrun hreturned) hclosed
  case stays_closed => exact fun hclosed more q late hrun => isClosed_of_runAll hrun hclosed
  case close_again =>
    intro hclosed
    rw [step, close_of_closed hgoverned hclosed]

/-- A second run of a proxy from the factory while the first one is going on, a third while it is
about to fail, and a fourth when it has failed. -/
theorem lifeCycle_after_failure :
    let frontend : Address := .datagram (.v4 .loopback 53)
    let backend : SocketAddress := .v4 .loopback 5353
    let client : SocketAddress := .v4 .loopback 5001
    let opening : Opening := ⟨.ok (), .ok (.v4 .loopback 6000)⟩
    let cause : IoError := .os 101
    let events : List Event :=
      [.run, .run] ++
      ofRelay [.sweep, .receive (.ok (client, [1])), .lookUp opening, .send (.ok ()),
        .receive (.error cause)] ++
      [.run, .service (.datagram .drain), .run, .close, .service (.datagram (.replyStop 0))]
    let made := bound frontend (.datagram (.idle backend .info))
    let timeout := 10 * Duration.second
    (make (.system .info) .info frontend (.datagram backend) (.fresh .isolated [])).1 = .ok made ∧
      ∃ p effects, (made.withTimeout timeout).runAll events = some (p, effects) ∧
        p.runs = [.failed (.io cause), .failed .alreadyStarted, .failed .alreadyStarted,
          .failed .closed] ∧
        LifeCycle events p := by
  intro frontend backend client opening cause events made timeout
  have hmade :
      (make (.system .info) .info frontend (.datagram backend) (.fresh .isolated [])).1 =
        .ok made := rfl
  have hruns : ((made.withTimeout timeout).runAll events).map (·.1.runs) =
      some [.failed (.io cause), .failed .alreadyStarted, .failed .alreadyStarted,
        .failed .closed] := by
    decide +kernel
  obtain ⟨⟨p, effects⟩, hrun, heq⟩ := Option.map_eq_some_iff.mp hruns
  have hnew := (isNew_of_ofRoute (Prod.ext hmade rfl)).withTimeout timeout
  exact ⟨hmade, p, effects, hrun, heq, lifeCycle_of_runAll hnew hrun⟩

/-- A run has returned while the task of its only flow has a reply to send, and the frontend is
still bound. -/
theorem bound_after_return :
    let client : SocketAddress := .v4 .loopback 5001
    let opening : Opening := ⟨.ok (), .ok (.v4 .loopback 6000)⟩
    let events : List Event :=
      [.run] ++
      ofRelay [.sweep, .receive (.ok (client, [1])), .lookUp opening, .send (.ok ()),
        .replyReceive 0 (.ok [2]), .refresh 0] ++
      [.close] ++ ofRelay [.stop, .drain]
    let made := bound (.datagram (.v4 .loopback 53)) (.datagram (.idle (.v4 .loopback 5353) .info))
    (made.runAll events).map (fun (p, _) => (p.runs, p.isClosed, p.isBound)) =
      some ([.stopped], true, true) := by
  decide +kernel

end Proxy

end PortForward
