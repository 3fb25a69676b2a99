import Mathlib.Data.List.Induction
import PortForward.Proofs.Stream.Separation

/-!
# Traffic around a stream proxy

What clients and the backend write, interleaved with the steps of the proxy in any order. The
sides of a connection write when they like, also before the proxy has accepted or dialed, and
each may end its stream at any time. Of the kernel no more is asked than that a stream gives
back what was written to it, in order, and its end after all of that; every call may fail at
any time, and nothing says that what was written is ever read.
-/

namespace PortForward

/-- What happens to a stream proxy, and around it. -/
inductive Happening
  | step (event : Proxy.Event)
  /-- a side of a client's connection writes -/
  | write (client : Nat) (side : Side) (bytes : Bytes)
  /-- a side of a client's connection has nothing more to write -/
  | finish (client : Nat) (side : Side)

def Proxy.Event.bytesFrom (client : Nat) (side : Side) : Proxy.Event → Bytes
  | .service (.stream (.relay i event)) => if i = client then event.bytesFrom side else []
  | _ => []

/-- The end of a stream is read. -/
def Proxy.Event.isEndOf (client : Nat) (side : Side) : Proxy.Event → Prop
  | .service (.stream (.relay i event)) => i = client ∧ event.isEndOf side
  | _ => False

namespace Happening

def event? : Happening → Option Proxy.Event
  | step event => some event
  | _ => none

def written (client : Nat) (side : Side) : Happening → Bytes
  | write i s bytes => if i = client ∧ s = side then bytes else []
  | _ => []

def finishes (client : Nat) (side : Side) : Happening → Bool
  | finish i s => i = client ∧ s = side
  | _ => false

end Happening

/-- The steps of the proxy among all that happens. -/
def proxyEvents (all : List Happening) : List Proxy.Event := all.filterMap (·.event?)

section
variable (client : Nat) (side : Side) (all : List Happening)

def bytesWritten : Bytes := all.flatMap (·.written client side)

def bytesRead : Bytes := (proxyEvents all).flatMap (·.bytesFrom client side)

def hasFinished : Bool := all.any (·.finishes client side)

end

/-- This may happen after all that has happened. -/
def Happening.fits (past : List Happening) : Happening → Bool
  | step (.service (.stream (.relay client (.copy side (.read (.ok bytes)))))) =>
    if bytes = [] then
      hasFinished client side past ∧ bytesRead client side past = bytesWritten client side past
    else bytesRead client side past ++ bytes <+: bytesWritten client side past
  | write client side _ => ¬ hasFinished client side past
  | _ => true

/-- Everything may happen that happens, after what has happened by then. -/
def plausibleFrom (past : List Happening) : List Happening → Bool
  | [] => true
  | happening :: rest => happening.fits past && plausibleFrom (past ++ [happening]) rest

def Plausible (all : List Happening) : Prop := plausibleFrom [] all = true

variable {client : Nat} {side : Side} {all past more : List Happening} {happening : Happening}

@[simp] theorem proxyEvents_append :
    proxyEvents (all ++ more) = proxyEvents all ++ proxyEvents more :=
  List.filterMap_append

@[simp] theorem bytesWritten_append :
    bytesWritten client side (all ++ more) =
      bytesWritten client side all ++ bytesWritten client side more :=
  List.flatMap_append

@[simp] theorem bytesRead_append :
    bytesRead client side (all ++ more) =
      bytesRead client side all ++ bytesRead client side more := by
  rw [bytesRead, proxyEvents_append, List.flatMap_append]
  rfl

@[simp] theorem hasFinished_append :
    hasFinished client side (all ++ more) =
      (hasFinished client side all || hasFinished client side more) :=
  List.any_append

theorem plausibleFrom_append :
    plausibleFrom past (all ++ more) = (plausibleFrom past all && plausibleFrom (past ++ all) more) := by
  induction all generalizing past with
  | nil => simp [plausibleFrom]
  | cons happening all ih =>
    simp only [List.cons_append, plausibleFrom, ih, List.append_assoc, List.nil_append, Bool.and_assoc]

theorem Plausible.snoc_iff :
    Plausible (all ++ [happening]) ↔ Plausible all ∧ happening.fits all = true := by
  simp [Plausible, plausibleFrom_append, plausibleFrom]

/-- What has been read of a stream, against what has been written to it. -/
structure InOrder (client : Nat) (side : Side) (all : List Happening) : Prop where
  read_prefix : bytesRead client side all <+: bytesWritten client side all
  read_all : (∃ event ∈ proxyEvents all, event.isEndOf client side) →
    hasFinished client side all ∧ bytesRead client side all = bytesWritten client side all

theorem InOrder.write {i : Nat} {s : Side} {bytes : Bytes} (h : InOrder client side all)
    (hfits : (Happening.write i s bytes).fits all) :
    InOrder client side (all ++ [.write i s bytes]) := by
  have hread : bytesRead client side [.write i s bytes] = [] := rfl
  have hunfinished : hasFinished client side [.write i s bytes] = false := rfl
  constructor
  case read_prefix =>
    rw [bytesRead_append, hread, List.append_nil, bytesWritten_append]
    exact h.read_prefix.trans (List.prefix_append _ _)
  case read_all =>
    intro hend
    obtain ⟨hfinished, hall⟩ := h.read_all (by simpa [proxyEvents, Happening.event?] using hend)
    have hother : ¬ (i = client ∧ s = side) := by
      rintro ⟨rfl, rfl⟩
      simp [Happening.fits, hfinished] at hfits
    have hnone : bytesWritten client side [.write i s bytes] = [] := by
      simp [bytesWritten, Happening.written, hother]
    simp [hread, hnone, hfinished, hall]

theorem InOrder.finish {i : Nat} {s : Side} (h : InOrder client side all) :
    InOrder client side (all ++ [.finish i s]) := by
  have hread : bytesRead client side [.finish i s] = [] := rfl
  have hwritten : bytesWritten client side [.finish i s] = [] := rfl
  constructor
  case read_prefix =>
    rw [bytesRead_append, bytesWritten_append, hread, hwritten, List.append_nil, List.append_nil]
    exact h.read_prefix
  case read_all =>
    intro hend
    obtain ⟨hfinished, hall⟩ := h.read_all (by simpa [proxyEvents, Happening.event?] using hend)
    simp [hread, hwritten, hfinished, hall]

/-- A step reads this stream, or it neither takes bytes from it nor sees its end. -/
theorem Proxy.Event.reads_or (event : Proxy.Event) (client : Nat) (side : Side) :
    (∃ bytes, event = .service (.stream (.relay client (.copy side (.read (.ok bytes)))))) ∨
      event.bytesFrom client side = [] ∧ ¬ event.isEndOf client side := by
  cases event with
  | service event =>
    cases event with
    | stream event =>
      cases event with
      | relay i event =>
        cases event with
        | copy source event =>
          by_cases hown : i = client ∧ source = side
          · obtain ⟨rfl, rfl⟩ := hown
            cases event with
            | read result =>
              cases result with
              | ok bytes => exact .inl ⟨bytes, rfl⟩
              | error e => simp [bytesFrom, isEndOf, StreamRelay.Event.bytesFrom,
                  StreamRelay.Event.isEndOf, Half.Event.bytes]
            | _ => simp [bytesFrom, isEndOf, StreamRelay.Event.bytesFrom,
                StreamRelay.Event.isEndOf, Half.Event.bytes]
          · right
            constructor
            · by_cases hi : i = client
              · have hside : ¬ source = side := fun hside => hown ⟨hi, hside⟩
                simp [bytesFrom, StreamRelay.Event.bytesFrom, hside]
              · simp [bytesFrom, hi]
            · rintro ⟨hi, hside, -⟩
              exact hown ⟨hi, hside⟩
        | _ => simp [bytesFrom, isEndOf, StreamRelay.Event.bytesFrom, StreamRelay.Event.isEndOf]
      | _ => exact .inr ⟨rfl, id⟩
    | _ => exact .inr ⟨rfl, id⟩
  | _ => exact .inr ⟨rfl, id⟩

theorem bytesRead_step (event : Proxy.Event) :
    bytesRead client side [.step event] = event.bytesFrom client side :=
  List.append_nil _

theorem InOrder.step {event : Proxy.Event} (h : InOrder client side all)
    (hfits : (Happening.step event).fits all) : InOrder client side (all ++ [.step event]) := by
  have hwritten : bytesWritten client side [.step event] = [] := rfl
  have hfinishes : hasFinished client side [.step event] = false := rfl
  have hevents : proxyEvents [.step event] = [event] := rfl
  rcases event.reads_or client side with ⟨bytes, rfl⟩ | ⟨hbytes, hnot⟩
  · have hbytes : Proxy.Event.bytesFrom client side
        (.service (.stream (.relay client (.copy side (.read (.ok bytes)))))) = bytes := by
      simp [Proxy.Event.bytesFrom, StreamRelay.Event.bytesFrom, Half.Event.bytes]
    by_cases hnil : bytes = []
    · subst hnil
      simp only [Happening.fits, if_true, decide_eq_true_eq] at hfits
      constructor <;> simp [hwritten, bytesRead_step, hbytes, hfits.1, hfits.2]
    · simp only [Happening.fits, hnil, if_false, decide_eq_true_eq] at hfits
      constructor
      case read_prefix => simpa [hwritten, bytesRead_step, hbytes] using hfits
      case read_all =>
        intro hend
        -- Nothing is left to read once the end has been read.
        have hbefore : ∃ event ∈ proxyEvents all, event.isEndOf client side := by
          obtain ⟨event, hmem, hend⟩ := hend
          rw [proxyEvents_append, hevents] at hmem
          rcases List.mem_append.mp hmem with hmem | hmem
          · exact ⟨event, hmem, hend⟩
          · cases List.mem_singleton.mp hmem
            obtain ⟨-, -, hread⟩ := hend
            cases hread
            exact absurd rfl hnil
        obtain ⟨-, hall⟩ := h.read_all hbefore
        have hlength := hfits.length_le
        rw [hall, List.length_append] at hlength
        exact absurd (List.length_eq_zero_iff.mp (by omega)) hnil
  · constructor
    case read_prefix => simpa [hwritten, bytesRead_step, hbytes] using h.read_prefix
    case read_all =>
      rintro ⟨event', hmem, hend⟩
      rw [proxyEvents_append, hevents] at hmem
      rcases List.mem_append.mp hmem with hmem | hmem
      · simpa [hwritten, hfinishes, bytesRead_step, hbytes] using h.read_all ⟨event', hmem, hend⟩
      · cases List.mem_singleton.mp hmem
        exact absurd hend hnot

theorem Plausible.inOrder (h : Plausible all) : InOrder client side all := by
  induction all using List.reverseRecOn with
  | nil => exact ⟨List.prefix_rfl, nofun⟩
  | append_singleton all happening ih =>
    obtain ⟨hall, hfits⟩ := Plausible.snoc_iff.mp h
    cases happening with
    | step event => exact (ih hall).step hfits
    | write => exact (ih hall).write hfits
    | finish => exact (ih hall).finish

section Steps

open StreamService

variable {past : List (Moment StreamService)} {m : Moment StreamService}

theorem bytesFrom_stepsOf : (stepsOf client m).flatMap (·.event.bytesFrom side) =
    m.event.bytesFrom client side := by
  rcases stepsOf_cases client m with ⟨event, hevent, hsteps⟩ | ⟨hnot, hsteps⟩
  · rw [hsteps, hevent, List.flatMap_singleton]
    exact (if_pos rfl).symm
  · rcases m.event.reads_or client side with ⟨bytes, hread⟩ | ⟨hbytes, -⟩
    · exact absurd hread (hnot _)
    · rw [hsteps, hbytes]
      rfl

theorem isEndOf_stepsOf : (∃ step ∈ stepsOf client m, step.event.isEndOf side) ↔
    m.event.isEndOf client side := by
  rcases stepsOf_cases client m with ⟨event, hevent, hsteps⟩ | ⟨hnot, hsteps⟩
  · rw [hsteps, hevent]
    simp [Proxy.Event.isEndOf]
  · rcases m.event.reads_or client side with ⟨bytes, hread⟩ | ⟨-, hend⟩
    · exact absurd hread (hnot _)
    · simp [hsteps, hend]

/-- What the relay of a client has read is what was read of its streams. -/
theorem bytesFrom_steps (h : past.map (·.event) = proxyEvents all) :
    (past.flatMap (stepsOf client)).flatMap (·.event.bytesFrom side) =
      bytesRead client side all := by
  rw [bytesRead, ← h, List.flatMap_map, List.flatMap_assoc]
  exact List.flatMap_congr fun m _ => bytesFrom_stepsOf

theorem isEndOf_steps (h : past.map (·.event) = proxyEvents all) :
    (∃ step ∈ past.flatMap (stepsOf client), step.event.isEndOf side) ↔
      ∃ event ∈ proxyEvents all, event.isEndOf client side := by
  rw [← h]
  constructor
  · rintro ⟨step, hmem, hend⟩
    obtain ⟨m, hm, hstep⟩ := List.mem_flatMap.mp hmem
    exact ⟨m.event, List.mem_map_of_mem hm, isEndOf_stepsOf.mp ⟨step, hstep, hend⟩⟩
  · rintro ⟨event, hmem, hend⟩
    obtain ⟨m, hm, rfl⟩ := List.mem_map.mp hmem
    obtain ⟨step, hstep, hend⟩ := isEndOf_stepsOf.mpr hend
    exact ⟨step, List.mem_flatMap.mpr ⟨m, hm, hstep⟩, hend⟩

end Steps

end PortForward
