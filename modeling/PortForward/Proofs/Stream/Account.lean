import PortForward.Proofs.Effects
import PortForward.Proofs.Stream.Passage

/-!
# The account of a stream relay

A relay from its acceptance on, as a list of the steps it has made. For each of its directions
the bytes read are those passed on and those still held, and the end is passed on after all of
them. The two directions are accounted for apart: a step of one is none of the other, so that
nothing which happens in one direction, its end included, shows in the other.
-/

namespace PortForward

namespace Half

/-- What a direction has passed on in these effects, having taken these bytes from its source,
which is spent or not. -/
structure Account (client : Nat) (source : Side) (effects : List Effect) (taken : Bytes)
    (spent : Prop) (h : Half) : Prop where
  conveys : ∃ bytes, Conveys client source.other effects bytes h.isEnded ∧
    taken = bytes ++ h.held ∧ h.moved = bytes.length
  spent_iff : spent ↔ h.isCopying = false

variable {client : Nat} {source side : Side} {effects more : List Effect} {taken : Bytes}
variable {spent : Prop} {h h' : Half} {event : Event}

theorem Account.fresh : Account client source [] [] False .fresh where
  conveys := ⟨[], .nil, rfl, rfl⟩
  spent_iff := by simp [Half.fresh, isCopying]

theorem Account.silent (ha : Account client source effects taken spent h)
    (hmore : towards client source.other more = []) :
    Account client source (effects ++ more) taken spent h := by
  obtain ⟨⟨bytes, hconveys, htaken, hmoved⟩, hspent⟩ := ha
  exact ⟨⟨bytes, hconveys.silent hmore, htaken, hmoved⟩, hspent⟩

theorem Account.step (ha : Account client source effects taken spent h)
    (ht : Transition client source.other h event h' more) :
    Account client source (effects ++ more) (taken ++ event.bytes)
      (spent ∨ event = .read (.ok [])) h' := by
  obtain ⟨⟨bytes, hconveys, rfl, hmoved⟩, hspent⟩ := ha
  cases ht with
  | @read held n chunk hchunk =>
    refine ⟨⟨bytes, hconveys.silent rfl, ?_, hmoved⟩, ?_⟩
    · simp [Half.held, Event.bytes]
    · simpa [hchunk, isCopying] using hspent
  | @sourceEnded held n =>
    refine ⟨⟨bytes, hconveys.silent rfl, ?_, hmoved⟩, ?_⟩
    · simp [Half.held, Event.bytes]
    · simp [isCopying]
  | @wrote held n k hpos hk =>
    refine ⟨⟨bytes ++ held.take k, hconveys.deliver _, ?_, ?_⟩, ?_⟩
    · simp [Half.held, Event.bytes]
    · have hn : n = bytes.length := hmoved
      simp [moved, hn, hk]
    · simpa [isCopying] using hspent
  | @wroteLast held n k hpos hk =>
    refine ⟨⟨bytes ++ held.take k, hconveys.deliver _, ?_, ?_⟩, ?_⟩
    · simp [Half.held, Event.bytes]
    · have hn : n = bytes.length := hmoved
      simp [moved, hn, hk]
    · simpa [isCopying] using hspent
  | @shut n =>
    refine ⟨⟨bytes, hconveys.finish, ?_, hmoved⟩, ?_⟩
    · simp [Half.held, Event.bytes]
    · simpa [isCopying] using hspent

theorem Transition.towards_other (ht : Transition client source.other h event h' effects)
    (hne : side ≠ source) : towards client side.other effects = [] := by
  have hother : ¬ source.other = side.other := by
    cases side <;> cases source <;> first | exact absurd rfl hne | simp [Side.other]
  cases ht <;> simp [towards, Effect.isTowards, hother]

theorem Transition.of_ended (ht : Transition client source.other h event h' effects)
    (hended : h'.isEnded) :
    event = .shutdown (.ok ()) ∧ effects = [.endStream client source.other] := by
  cases ht with
  | shut => exact ⟨rfl, rfl⟩
  | _ => cases hended

end Half

namespace StreamRelay

namespace Event

def bytesFrom (side : Side) : Event → Bytes
  | copy source event => if source = side then event.bytes else []
  | _ => []

/-- The end of the source at the given side is read. -/
def isEndOf (side : Side) : Event → Prop
  | copy source event => source = side ∧ event = .read (.ok [])
  | _ => False

theorem silent_of_failure {event : Event} {e : IoError} (h : event.failure? = some e) :
    (∀ side, event.bytesFrom side = []) ∧ ∀ side, ¬ event.isEndOf side := by
  cases event with
  | copy source event =>
    cases event with
    | read result =>
      cases result with
      | ok => cases h
      | error => simp [bytesFrom, isEndOf, Half.Event.bytes]
    | _ => simp [bytesFrom, isEndOf, Half.Event.bytes]
  | _ => exact ⟨fun _ => rfl, fun _ => id⟩

end Event

/-- A step of a relay: whether its proxy was closed, the event and the effects. -/
structure Step where
  closed : Bool
  event : Event
  effects : List Effect

/-- The steps of a relay since its acceptance, and what is left of it. -/
inductive Life (start : StreamRelay) : List Step → Option StreamRelay → Prop
  | accepted : Life start [] (some start)
  | step {steps r step next} : Life start steps (some r) →
      Transition step.closed r step.event next step.effects → Life start (steps ++ [step]) next

/-- Each direction has an account of its own. -/
def Account (client : Nat) (steps : List Step) (halves : Side → Half) : Prop :=
  ∀ side, (halves side).Account client side (steps.flatMap (·.effects))
    (steps.flatMap (·.event.bytesFrom side)) (∃ step ∈ steps, step.event.isEndOf side)

variable {client : Nat} {peer : Address} {steps : List Step} {r : StreamRelay}
variable {halves : Side → Half} {next : Option StreamRelay}

theorem account_born : Account client [] fun _ => .fresh := by
  intro side
  have hfresh : Half.Account client side [] [] False .fresh := .fresh
  simpa using hfresh

/-- A step that reads nothing and passes nothing on. -/
theorem Account.silent {step : Step} (h : Account client steps halves)
    (htowards : ∀ side, towards client side step.effects = [])
    (hbytes : ∀ side, step.event.bytesFrom side = [])
    (hend : ∀ side, ¬ step.event.isEndOf side) : Account client (steps ++ [step]) halves := by
  intro side
  have hside := (h side).silent (htowards side.other)
  simpa [List.flatMap_append, hbytes side, hend side, or_and_right, exists_or] using hside

theorem Account.copy (h : Account client steps r.phase.half) (hclient : r.client = client)
    {source : Side} {event : Half.Event} {half : Half} {effects more : List Effect} {closed : Bool}
    (hcopying : r.phase.isCopying)
    (ht : Half.Transition r.client source.other (r.phase.half source) event half effects)
    (hmore : ∀ side, towards client side more = []) :
    Account client (steps ++ [⟨closed, .copy source event, effects ++ more⟩])
      (r.phase.setHalf source half).half := by
  subst hclient
  intro side
  have hmore := hmore side.other
  by_cases hside : side = source
  · subst hside
    have hstep := ((h side).step ht).silent hmore
    rw [StreamPhase.half_setHalf_self hcopying]
    simpa [List.flatMap_append, Event.bytesFrom, Event.isEndOf, or_and_right, exists_or] using hstep
  · have hother := ht.towards_other hside
    have hnone : towards r.client side.other (effects ++ more) = [] := by
      rw [towards_append, hother, hmore]
      rfl
    have hsame := (h side).silent hnone
    have hne : ¬ source = side := fun heq => hside heq.symm
    rw [StreamPhase.half_setHalf_of_ne hside]
    simpa [List.flatMap_append, Event.bytesFrom, Event.isEndOf, hne, or_and_right, exists_or]
      using hsame

/-- What holds of a relay that lives. -/
structure Living (client : Nat) (peer : Address) (steps : List Step) (r : StreamRelay) : Prop where
  client_eq : r.client = client
  peer_eq : r.peer = peer
  account : Account client steps r.phase.half
  unfailed : ∀ step ∈ steps, step.event.failure? = none
  unfinished : ¬ ∀ side, (r.phase.half side).isEnded

theorem living_born : Living client peer [] (born client peer) where
  client_eq := rfl
  peer_eq := rfl
  account := account_born
  unfailed := nofun
  unfinished h := nomatch h .client

/-- Until it copies, both directions of a relay are fresh, also at the moment when it begins. -/
theorem Living.silent {closed : Bool} {event : Event} {effects : List Effect} {phase : StreamPhase}
    (h : Living client peer steps r) (hbefore : r.phase.isCopying = false)
    (hafter : ∀ side, phase.half side = .fresh) (hok : event.failure? = none)
    (htowards : ∀ side, towards client side effects = [])
    (hbytes : ∀ side, event.bytesFrom side = []) (hend : ∀ side, ¬ event.isEndOf side) :
    Living client peer (steps ++ [⟨closed, event, effects⟩]) { r with phase } := by
  have hsame : phase.half = r.phase.half := by
    funext side
    rw [hafter, StreamPhase.half_of_not_copying hbefore]
  constructor
  case client_eq => exact h.client_eq
  case peer_eq => exact h.peer_eq
  case account =>
    rw [hsame]
    exact h.account.silent htowards hbytes hend
  case unfailed =>
    intro step hmem
    rcases List.mem_append.mp hmem with hmem | hmem
    · exact h.unfailed step hmem
    · cases List.mem_singleton.mp hmem
      exact hok
  case unfinished =>
    rw [hsame]
    exact h.unfinished

theorem Living.step {closed : Bool} {event : Event} {effects : List Effect} {r' : StreamRelay}
    (h : Living client peer steps r) (ht : Transition closed r event (some r') effects) :
    Living client peer (steps ++ [⟨closed, event, effects⟩]) r' := by
  cases ht with
  | announced hphase | dialed hphase =>
    refine h.silent (by rw [hphase]; rfl) (fun _ => rfl) rfl ?_ (fun _ => rfl) (fun _ => id)
    exact fun _ => rfl
  | connected hphase =>
    refine h.silent (by rw [hphase]; rfl) ?_ rfl ?_ (fun _ => rfl) (fun _ => id)
    · intro side
      cases side <;> rfl
    · exact fun _ => rfl
  | @moved source event half effects hcopying ht hunfinished =>
    constructor
    case client_eq => exact h.client_eq
    case peer_eq => exact h.peer_eq
    case account =>
      have haccount : Account client (steps ++ [⟨closed, .copy source event, effects ++ []⟩])
          (r.phase.setHalf source half).half :=
        h.account.copy h.client_eq hcopying ht fun _ => rfl
      rwa [List.append_nil] at haccount
    case unfailed =>
      intro step hmem
      rcases List.mem_append.mp hmem with hmem | hmem
      · exact h.unfailed step hmem
      · cases List.mem_singleton.mp hmem
        exact ht.failure_eq_none
    case unfinished => exact hunfinished

theorem living_of_life (h : Life (born client peer) steps next) (hnext : next = some r) :
    Living client peer steps r := by
  induction h generalizing r with
  | accepted =>
    cases hnext
    exact living_born
  | step _ ht ih =>
    cases hnext
    exact (ih rfl).step ht

/-- How the last step has ended a relay whose directions had come so far by then. -/
inductive Ending (client : Nat) (peer : Address) (halves : Side → Half) : Step → Prop
  | failed {closed event e} : event.failure? = some e →
      Ending client peer halves
        ⟨closed, event, [.log (.connectionFailed peer e), .release client]⟩
  | dropped :
      Ending client peer halves ⟨true, .drop, [.log (.clientDropped peer), .release client]⟩
  | completed {closed source} : (∀ side, (halves side).isEnded) →
      Ending client peer halves
        ⟨closed, .copy source (.shutdown (.ok ())),
          [.endStream client source.other,
            .log (.connectionEnded (halves .client).moved (halves .backend).moved),
            .release client]⟩

/-- A relay that has ended has an account as well, and one last step. -/
theorem ending_of_life (h : Life (born client peer) steps none) :
    ∃ halves before last, steps = before ++ [last] ∧ Account client steps halves ∧
      (∀ step ∈ before, step.event.failure? = none) ∧ Ending client peer halves last := by
  cases h with
  | @step before r last _ hlife ht =>
    have hliving := living_of_life hlife rfl
    obtain ⟨closed, event, effects⟩ := last
    have hclient := hliving.client_eq
    have hpeer := hliving.peer_eq
    cases ht with
    | @completed source event half moved hcopying ht hended =>
      have hhalf := hended source
      rw [StreamPhase.half_setHalf_self hcopying] at hhalf
      obtain ⟨rfl, rfl⟩ := ht.of_ended hhalf
      refine ⟨(r.phase.setHalf source half).half, before, _, rfl, ?_, hliving.unfailed, ?_⟩
      · exact hliving.account.copy hclient hcopying ht fun _ => rfl
      · rw [hclient]
        exact .completed hended
    | @failed event e hphase hfailed =>
      refine ⟨r.phase.half, before, _, rfl, ?_, hliving.unfailed, ?_⟩
      · obtain ⟨hbytes, hend⟩ := Event.silent_of_failure hfailed
        exact hliving.account.silent (fun _ => rfl) hbytes hend
      · rw [hclient, hpeer]
        exact .failed hfailed
    | dropped hclosed hphase =>
      refine ⟨r.phase.half, before, _, rfl, ?_, hliving.unfailed, ?_⟩
      · exact hliving.account.silent (fun _ => rfl) (fun _ => rfl) (fun _ => id)
      · subst hclosed
        rw [hclient, hpeer]
        exact .dropped

end StreamRelay

end PortForward
