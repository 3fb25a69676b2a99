import Mathlib.Data.List.Induction
import PortForward.Proxy

/-!
# Histories

A run of a proxy as the list of its steps, each with what the proxy was before and after
it. A history follows one kind of service, so that every moment shows the service itself.
Any run of such a proxy has a history, with the events of the run and its effects.
-/

namespace PortForward

/-- One step of a proxy with a service of type `σ`. -/
structure Moment (σ : Type) where
  closed : Bool
  before : σ
  event : Proxy.Event
  effects : List Effect
  after : σ

/-- The moments of a run that began with the proxy `start`, the latest last, and the proxy
and its service after them. -/
inductive History {σ : Type} (service : σ → Service) (start : Proxy) :
    List (Moment σ) → Proxy → σ → Prop
  | nil {s : σ} : start.service = service s → History service start [] start s
  | snoc {past p s event q effects s'} : History service start past p s →
      p.step event = some (q, effects) → q.service = service s' →
      History service start (past ++ [⟨p.isClosed, s, event, effects, s'⟩]) q s'

structure Service.IsKind {σ : Type} (service : σ → Service) : Prop where
  start : ∀ s, ∃ s', (service s).start = service s'
  step : ∀ {s closed event turn}, (service s).step closed event = some turn →
    ∃ s', turn.next = service s'

/-- What a step of a proxy does to its service, and shows of it. -/
inductive Service.Passes (frontend : Address) (closed : Bool) (s : Service) :
    Proxy.Event → List Effect → Service → Prop
  | refused : Passes frontend closed s .run [] s
  | started : closed = false →
      Passes frontend closed s .run [.log (s.runningNotice frontend)] s.start
  | closed : Passes frontend closed s .close [] s
  | moved {event turn} : s.step closed event = some turn → turn.loopEnd = none →
      Passes frontend closed s (.service event) turn.effects turn.next
  | finished {event turn} : s.step closed event = some turn → turn.loopEnd.isSome →
      Passes frontend closed s (.service event)
        (turn.effects ++ [.log (turn.next.stoppedNotice frontend)]) turn.next

namespace Service

section Step

variable {closed : Bool} {event : Event} {turn : Turn Service}

/-- A service takes only the steps of its own kind. -/
theorem exists_stream_step {s : StreamService} (h : (stream s).step closed event = some turn) :
    ∃ e t, event = .stream e ∧ s.step closed e = some t ∧
      turn = ⟨.stream t.next, t.effects, t.loopEnd⟩ := by
  cases event with
  | stream e =>
    obtain ⟨t, ht, rfl⟩ := Option.map_eq_some_iff.mp h
    exact ⟨e, t, rfl, ht, rfl⟩
  | framed | datagram => cases h

theorem exists_framed_step {s : FramedService} (h : (framed s).step closed event = some turn) :
    ∃ e t, event = .framed e ∧ s.step closed e = some t ∧
      turn = ⟨.framed t.next, t.effects, t.loopEnd⟩ := by
  cases event with
  | framed e =>
    obtain ⟨t, ht, rfl⟩ := Option.map_eq_some_iff.mp h
    exact ⟨e, t, rfl, ht, rfl⟩
  | stream | datagram => cases h

theorem exists_datagram_step {r : DatagramRelay} (h : (datagram r).step closed event = some turn) :
    ∃ e t, event = .datagram e ∧ r.step closed e = some t ∧
      turn = ⟨.datagram t.next, t.effects, t.loopEnd⟩ := by
  cases event with
  | datagram e =>
    obtain ⟨t, ht, rfl⟩ := Option.map_eq_some_iff.mp h
    exact ⟨e, t, rfl, ht, rfl⟩
  | stream | framed => cases h

end Step

theorem isKind_datagram : IsKind datagram where
  start s := ⟨s.start, rfl⟩
  step := by
    intro s closed event turn h
    obtain ⟨-, t, -, -, rfl⟩ := exists_datagram_step h
    exact ⟨t.next, rfl⟩

theorem isKind_stream : IsKind stream where
  start s := ⟨s.start, rfl⟩
  step := by
    intro s closed event turn h
    obtain ⟨-, t, -, -, rfl⟩ := exists_stream_step h
    exact ⟨t.next, rfl⟩

theorem isKind_framed : IsKind framed where
  start s := ⟨s.start, rfl⟩
  step := by
    intro s closed event turn h
    obtain ⟨-, t, -, -, rfl⟩ := exists_framed_step h
    exact ⟨t.next, rfl⟩

end Service

namespace Proxy

theorem step_service {p q : Proxy} {event : Service.Event} {effects : List Effect}
    (h : p.step (.service event) = some (q, effects)) :
    ∃ turn, p.service.step p.isClosed event = some turn ∧
      ((turn.loopEnd = none ∧ q = { p with service := turn.next } ∧ effects = turn.effects) ∨
        ∃ loopEnd, turn.loopEnd = some loopEnd ∧
          q = ({ p with service := turn.next }.finish loopEnd).1 ∧
          effects = turn.effects ++ [.log (turn.next.stoppedNotice p.frontend)]) := by
  obtain ⟨turn, hturn, hq⟩ := Option.map_eq_some_iff.mp h
  refine ⟨turn, hturn, ?_⟩
  cases hend : turn.loopEnd with
  | none =>
    rw [hend] at hq
    cases hq
    exact .inl ⟨rfl, rfl, rfl⟩
  | some loopEnd =>
    rw [hend] at hq
    cases hq
    exact .inr ⟨loopEnd, rfl, rfl, rfl⟩

theorem exists_step {p : Proxy} {event : Service.Event} {turn : Turn Service}
    (h : p.service.step p.isClosed event = some turn) :
    ∃ q effects, p.step (.service event) = some (q, effects) ∧ q.service = turn.next := by
  simp only [step, h, Option.map_some]
  cases turn.loopEnd with
  | none => exact ⟨_, _, rfl, rfl⟩
  | some loopEnd => exact ⟨_, _, rfl, rfl⟩

/-- A run is refused, and changes nothing but the slot and the list of runs, or it starts
the service. -/
theorem run_cases (p : Proxy) :
    (p.gate.cancelled = false ∧ p.gate.slot = some () ∧
      p.run = ({ p with
        gate := p.gate.emptySlot, runs := p.runs ++ [.running], service := p.service.start },
        [.log (p.service.runningNotice p.frontend)])) ∨
    ∃ e, p.run = ({ p with gate := p.gate.emptySlot, runs := p.runs ++ [.failed e] }, []) := by
  unfold run Gate.start Gate.verdict
  cases hc : p.gate.cancelled with
  | true => exact .inr ⟨.closed, by simp⟩
  | false =>
    cases hs : p.gate.slot with
    | none => exact .inr ⟨.alreadyStarted, by simp⟩
    | some listener => exact .inl ⟨rfl, rfl, by simp⟩

theorem passes_of_step {p q : Proxy} {event : Event} {effects : List Effect}
    (h : p.step event = some (q, effects)) :
    p.service.Passes p.frontend p.isClosed event effects q.service := by
  cases event with
  | run =>
    have hrun : p.run = (q, effects) := Option.some.inj h
    rcases p.run_cases with ⟨hopen, -, heq⟩ | ⟨e, heq⟩
    · obtain ⟨rfl, rfl⟩ := Prod.mk.inj (heq.symm.trans hrun)
      exact .started hopen
    · obtain ⟨rfl, rfl⟩ := Prod.mk.inj (heq.symm.trans hrun)
      exact .refused
  | close =>
    cases h
    exact .closed
  | service event =>
    obtain ⟨turn, hturn, ⟨hend, rfl, rfl⟩ | ⟨loopEnd, hend, rfl, rfl⟩⟩ := step_service h
    · exact .moved hturn hend
    · exact .finished hturn (Option.isSome_iff_exists.mpr ⟨loopEnd, hend⟩)

theorem step_keeps_kind {σ : Type} {service : σ → Service} (kind : Service.IsKind service)
    {p q : Proxy} {s : σ} {event : Event} {effects : List Effect}
    (hs : p.service = service s) (h : p.step event = some (q, effects)) :
    ∃ s', q.service = service s' := by
  have hpasses := passes_of_step h
  rw [hs] at hpasses
  generalize q.service = t at hpasses
  cases hpasses with
  | refused | closed => exact ⟨s, rfl⟩
  | started => exact kind.start s
  | moved hturn | finished hturn => exact kind.step hturn

theorem runAll_cons {p q r : Proxy} {event : Event} {events : List Event}
    {first rest : List Effect} (hstep : p.step event = some (q, first))
    (hrun : q.runAll events = some (r, rest)) :
    p.runAll (event :: events) = some (r, first ++ rest) := by
  simp only [runAll, hstep, hrun, Option.bind_some, Option.map_some]

theorem runAll_append (p : Proxy) (first second : List Event) :
    p.runAll (first ++ second) = (p.runAll first).bind fun (q, early) =>
      (q.runAll second).map fun (r, late) => (r, early ++ late) := by
  induction first generalizing p with
  | nil =>
    simp only [List.nil_append, runAll, Option.bind_some]
    cases p.runAll second <;> rfl
  | cons event events ih =>
    simp only [List.cons_append, runAll]
    cases p.step event with
    | none => rfl
    | some next =>
      obtain ⟨q, one⟩ := next
      simp only [Option.bind_some, ih]
      cases q.runAll events with
      | none => rfl
      | some next =>
        obtain ⟨r, early⟩ := next
        simp only [Option.bind_some, Option.map_some]
        cases r.runAll second with
        | none => rfl
        | some next => simp [List.append_assoc]

theorem runAll_trans {p q r : Proxy} {events more : List Event} {early late : List Effect}
    (hfirst : p.runAll events = some (q, early)) (hsecond : q.runAll more = some (r, late)) :
    p.runAll (events ++ more) = some (r, early ++ late) := by
  simp only [runAll_append, hfirst, hsecond, Option.bind_some, Option.map_some]

theorem runAll_snoc {start p : Proxy} {events : List Event} {event : Event} {effects : List Effect}
    (h : start.runAll (events ++ [event]) = some (p, effects)) :
    ∃ q early late, start.runAll events = some (q, early) ∧ q.step event = some (p, late) ∧
      early ++ late = effects := by
  rw [runAll_append] at h
  obtain ⟨⟨q, early⟩, hq, h⟩ := Option.bind_eq_some_iff.mp h
  obtain ⟨⟨r, late⟩, hr, h⟩ := Option.map_eq_some_iff.mp h
  simp only [runAll] at hr
  obtain ⟨⟨r', one⟩, hstep, hr⟩ := Option.bind_eq_some_iff.mp hr
  cases hr
  cases h
  exact ⟨q, early, one, hq, hstep, by simp⟩

/-- What holds of a proxy at first and is kept by every step holds in all runs. -/
theorem runAll_induction {start : Proxy} {motive : List Event → Proxy → Prop}
    (init : motive [] start)
    (step : ∀ {events p event q effects}, motive events p → p.step event = some (q, effects) →
      motive (events ++ [event]) q)
    {events : List Event} {p : Proxy} {effects : List Effect}
    (h : start.runAll events = some (p, effects)) : motive events p := by
  induction events using List.reverseRecOn generalizing p effects with
  | nil =>
    cases h
    exact init
  | append_singleton events event ih =>
    obtain ⟨q, early, late, hq, hstep, -⟩ := runAll_snoc h
    exact step (ih hq) hstep

end Proxy

namespace History

variable {σ : Type} {service : σ → Service} {start p : Proxy} {past : List (Moment σ)} {s : σ}

theorem service_eq (h : History service start past p s) : p.service = service s := by
  cases h with
  | nil hs => exact hs
  | snoc _ _ hs => exact hs

/-- The events of a history make the run that it tells of, with its effects. -/
theorem runAll_eq (h : History service start past p s) :
    start.runAll (past.map (·.event)) = some (p, past.flatMap (·.effects)) := by
  induction h with
  | nil => rfl
  | snoc _ hstep _ ih =>
    simp [Proxy.runAll_append, Proxy.runAll, ih, hstep]

/-- A history goes on with one that begins where it ends. -/
theorem append {q : Proxy} {s' : σ} {later : List (Moment σ)}
    (inj : Function.Injective service) (h : History service start past p s)
    (h' : History service p later q s') : History service start (past ++ later) q s' := by
  induction h' with
  | nil hs =>
    rw [List.append_nil, ← inj (h.service_eq.symm.trans hs)]
    exact h
  | snoc _ hstep hs ih =>
    rw [← List.append_assoc]
    exact ih.snoc hstep hs

/-- Each moment of a history is the step of a proxy that was there after the moments before it. -/
theorem of_moment {early later : List (Moment σ)} {m : Moment σ}
    (h : History service start (early ++ m :: later) p s) :
    ∃ q q', History service start early q m.before ∧ q.isClosed = m.closed ∧
      q.step m.event = some (q', m.effects) ∧ q'.service = service m.after := by
  generalize hpast : early ++ m :: later = past at h
  induction h generalizing later with
  | nil => simp at hpast
  | snoc hist hstep hs ih =>
    rcases List.eq_nil_or_concat later with rfl | ⟨later, last, rfl⟩
    · obtain ⟨rfl, hm⟩ := List.append_inj' hpast rfl
      cases hm
      exact ⟨_, _, hist, rfl, hstep, hs⟩
    · rw [List.concat_eq_append, ← List.cons_append, ← List.append_assoc] at hpast
      obtain ⟨hpast, -⟩ := List.append_inj' hpast rfl
      exact ih hpast

end History

/-- Every run of a proxy has a history. -/
theorem exists_history {σ : Type} {service : σ → Service} (kind : Service.IsKind service)
    {start p : Proxy} {s₀ : σ} (hs₀ : start.service = service s₀) {events : List Proxy.Event}
    {effects : List Effect} (h : start.runAll events = some (p, effects)) :
    ∃ past s, History service start past p s ∧ past.map (·.event) = events ∧
      past.flatMap (·.effects) = effects := by
  induction events using List.reverseRecOn generalizing p effects with
  | nil =>
    cases h
    exact ⟨[], s₀, .nil hs₀, rfl, rfl⟩
  | append_singleton events event ih =>
    obtain ⟨q, early, late, hq, hstep, rfl⟩ := Proxy.runAll_snoc h
    obtain ⟨past, s, hist, rfl, rfl⟩ := ih hq
    obtain ⟨s', hs'⟩ := Proxy.step_keeps_kind kind hist.service_eq hstep
    exact ⟨_, s', hist.snoc hstep hs', by simp, by simp⟩

end PortForward
