import PortForward.Proofs.Framed.Conveyance
import PortForward.Proofs.Framed.Separation

/-!
# A framed relay left to itself settles

Every step that a framed relay takes on its own leaves less for it to do: a frame is taken off
what the decoder stands for, a send is retried once at most, and a write leaves fewer bytes.
So a relay comes to rest, or ends, unless a call of it fails for ever.
-/

namespace PortForward

def FramedPhase.work : FramedPhase → Nat
  | waiting _ => 0
  | opening | sending _ _ true => 1
  | accepted | sending _ _ false => 2
  | writing _ rest => rest.length

namespace FramedRelay

/-- The step needs neither the client nor the backend to send anything. -/
def Event.isOwn : Event → Bool
  | announce | opened _ | decode | send _ | write _ => true
  | read _ | receive _ | stop => false

/-- A bound for the steps that a relay can take on its own. -/
def work (r : FramedRelay) : Nat :=
  r.phase.work + 3 * r.decoder.raw.length + if r.readable then 1 else 0

variable {closed : Bool} {backend : SocketAddress} {number : Nat} {r r' : FramedRelay}
variable {event : Event} {effects : List Effect}

theorem Transition.work_lt (h : Transition closed backend number r event (some r') effects)
    (hr : r.Tidy) (hown : event.isOwn) : r'.work < r.work := by
  cases h with
  | announced hphase | opened hphase | refusedOnce hphase =>
    simp only [work, hphase, FramedPhase.work]
    omega
  | ended | read | received | receiveRefused => cases hown
  | decoded hphase hreadable hnext =>
    obtain ⟨-, hraw, -⟩ := Decoder.next_some hr.sound hnext
    have hlength := congrArg List.length hraw
    simp only [List.length_append, Frame.header, List.length_cons, List.length_nil] at hlength
    simp only [work, hphase, hreadable, FramedPhase.work]
    omega
  | exhausted hphase hreadable _ hnext =>
    obtain ⟨hraw, -⟩ := Decoder.next_none hr.sound hnext
    simp [work, hphase, hreadable, hraw]
  | @sent socket payload retried hphase =>
    simp only [work, hphase]
    cases retried <;> simp only [FramedPhase.work] <;> omega
  | @wrote socket rest n hphase hpos hn =>
    simp only [work, hphase]
    by_cases hall : n = rest.length
    · simp only [hall, if_true, FramedPhase.work]
      omega
    · simp only [hall, if_false, FramedPhase.work, List.length_drop]
      omega

/-- A relay that is not at rest can take a step on its own in which no call fails. -/
theorem exists_own_step (hr : r.Tidy) (hrest : ¬ r.AtRest) :
    ∃ event, event.isOwn = true ∧ event.failure? = none ∧
      (r.step closed backend number event).isSome := by
  cases hphase : r.phase with
  | accepted => exact ⟨.announce, rfl, rfl, by simp [step, hphase]⟩
  | opening => exact ⟨.opened (.ok ()), rfl, rfl, by simp [step, hphase]⟩
  | waiting socket =>
    have hreadable : r.readable = true := by
      by_contra hnot
      exact hrest ⟨⟨socket, hphase⟩, by simpa using hnot⟩
    exact ⟨.decode, rfl, rfl, by simp [step, hphase, hreadable]⟩
  | sending socket payload retried =>
    exact ⟨.send (.ok ()), rfl, rfl, by simp [step, hphase]⟩
  | writing socket rest =>
    have hpos : 0 < rest.length := List.length_pos_iff.mpr (hr.unfinished socket rest hphase)
    exact ⟨.write (.ok rest.length), rfl, rfl, by simp [step, hphase, hpos]⟩

/-- A relay at rest takes whatever comes, from its client and from the backend. -/
theorem AtRest.receptive (h : r.AtRest) (bytes payload : Bytes) :
    (r.step closed backend number (.read (.ok bytes))).isSome ∧
      (r.step closed backend number (.receive (.ok payload))).isSome := by
  obtain ⟨⟨socket, hphase⟩, hreadable⟩ := h
  constructor
  · cases bytes <;> simp [step, hphase, hreadable]
  · have hle : (payload.take maxPayload).length ≤ maxPayload := by
      rw [List.length_take]
      omega
    simp [step, hphase, Frame.encode_of_le hle]

end FramedRelay

open FramedService

def ofConnection (client : Nat) (events : List FramedRelay.Event) : List Proxy.Event :=
  events.map fun event => .service (.framed (.relay client event))

variable {frontend : Address} {backend : SocketAddress} {past : List (Moment FramedService)}
variable {p : Proxy} {s : FramedService} {client : Nat} {r : FramedRelay}

theorem step_connection {event : FramedRelay.Event} {next : Option FramedRelay}
    {effects : List Effect} (hs : p.service = .framed s) (hr : s.relay? client = some r)
    (h : r.step p.isClosed s.backend s.opened event = some (next, effects)) :
    p.step (.service (.framed (.relay client event))) =
      some ({ p with service := .framed ((s.replace client next).countOpened event) },
        effects) := by
  simp only [Proxy.step, hs, Service.step, FramedService.step, hr, h, Option.bind_some,
    Option.map_some]
  rfl

theorem step_of_atRest (hs : p.service = .framed s) (hr : s.relay? client = some r)
    (hrest : r.AtRest) (bytes payload : Bytes) :
    (p.step (.service (.framed (.relay client (.read (.ok bytes)))))).isSome ∧
      (p.step (.service (.framed (.relay client (.receive (.ok payload)))))).isSome := by
  obtain ⟨hread, hreceive⟩ := hrest.receptive bytes payload
  obtain ⟨⟨next, effects⟩, hread⟩ := Option.isSome_iff_exists.mp hread
  obtain ⟨⟨next', effects'⟩, hreceive⟩ := Option.isSome_iff_exists.mp hreceive
  rw [step_connection hs hr hread, step_connection hs hr hreceive]
  exact ⟨rfl, rfl⟩

/-- In every state of every run a relay can come to rest on its own, or end. -/
theorem exists_settled
    (h : History .framed (.bound frontend (.framed (.idle backend))) past p s)
    (hr : s.relay? client = some r) :
    ∃ own q s' late, (∀ event ∈ own, event.isOwn = true ∧ event.failure? = none) ∧
      p.runAll (ofConnection client own) = some (q, late) ∧ q.service = .framed s' ∧
      ∀ r', s'.relay? client = some r' → r'.AtRest := by
  induction hwork : r.work using Nat.strongRecOn generalizing past p s r with
  | ind n ih =>
    by_cases hrest : r.AtRest
    · refine ⟨[], p, s, [], fun _ he => absurd he List.not_mem_nil, rfl, h.service_eq, ?_⟩
      intro r' hr'
      cases hr.symm.trans hr'
      exact hrest
    obtain ⟨peer, -, haccount⟩ := (connected_of_history h).account hr
    obtain ⟨event, hown, hok, henabled⟩ := FramedRelay.exists_own_step haccount.tidy hrest
    obtain ⟨⟨next, effects⟩, hstep⟩ := Option.isSome_iff_exists.mp henabled
    have ht := FramedRelay.transition_of_step hstep
    have hmoved := step_connection h.service_eq hr hstep
    have hafter : ((s.replace client next).countOpened event).relay? client = next := by
      rw [relay?_countOpened, relay?_replace_self hr]
      exact fun r' hr' => (ht.keeps hr').1.trans (client_of_relay? hr)
    have hevents : ∀ own : List FramedRelay.Event,
        (∀ e ∈ own, e.isOwn = true ∧ e.failure? = none) →
        ∀ e ∈ event :: own, e.isOwn = true ∧ e.failure? = none := by
      intro own hall e he
      rcases List.mem_cons.mp he with rfl | he
      · exact ⟨hown, hok⟩
      · exact hall e he
    -- The relay ends with this step, or goes on with less to do.
    cases next with
    | none =>
      refine ⟨[event], _, _, _, hevents [] (fun _ he => absurd he List.not_mem_nil),
        Proxy.runAll_cons hmoved rfl, rfl, ?_⟩
      intro r' hr'
      rw [hafter] at hr'
      cases hr'
    | some r' =>
      have hlt : r'.work < n := hwork ▸ ht.work_lt haccount.tidy hown
      obtain ⟨own, q, s', late, hall, hrun, hs', hend⟩ := ih _ hlt (h.snoc hmoved rfl) hafter rfl
      exact ⟨event :: own, q, s', effects ++ late, hevents own hall,
        Proxy.runAll_cons hmoved hrun, hs', hend⟩

end PortForward
