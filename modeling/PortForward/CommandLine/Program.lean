import PortForward.CommandLine.Help
import PortForward.Session.Play

/-!
# The program

From a command line to a running proxy, or to an exit status with something to read. A
proxy that runs is interrupted once, and then ends as any proxy that is closed.
-/

namespace PortForward.CommandLine

/-- A program that has ended. -/
structure Outcome where
  status : Nat
  interrupted : Bool
  output : List String
  errors : String
  deriving DecidableEq, Repr

/-- How far a program gets on its own. -/
inductive Start
  | ended (outcome : Outcome)
  | running (level : Level) (kernel : Kernel) (world : Session.World)

/-- An error with its causes below it, numbered if there are several. -/
def errorText (message : String) (causes : List String) : String :=
  let numbered (i : Nat) (cause : String) : String :=
    "\n" ++ "".pushn ' ' (5 - (toString i).length) ++ toString i ++ ": " ++ cause
  "Error: " ++ message ++
    match causes with
    | [] => ""
    | [cause] => "\n\nCaused by:\n    " ++ cause
    | causes => "\n\nCaused by:" ++ String.join (causes.mapIdx numbered)

namespace Outcome

def ofHalt (f : Halt) : Outcome :=
  if f.status = 0 then ⟨f.status, false, f.lines, ""⟩
  else ⟨f.status, false, [], String.ofList (Text.trimEnd ("\n".intercalate f.lines).toList)⟩

def failure (output : List String) (message : String) (causes : List String) : Outcome :=
  ⟨1, false, output, errorText message causes⟩

end Outcome

/-- The log lines of notices, as far as the log shows them. -/
def logLines (level : Level) (kernel : Kernel) (notices : List Notice) : List String :=
  (notices.filter fun n => level.shows n.level).map (·.fullLine kernel.name)

namespace Arguments

def make {σ : Type} (a : Arguments) (b : Binder σ) (s : σ) :
    (Except Failure (Option Proxy) × List Notice) × σ :=
  if a.bestEffort then Proxy.makeBestEffort b a.level a.frontend a.backend s
  else
    let (p, s) := Proxy.make b a.level a.frontend a.backend s
    ((p.map some, []), s)

/-- The message of a failure to make the proxy, with its causes. Without best effort it
says first what was to be set up. -/
def failureText (a : Arguments) (e : Failure) : String × List String :=
  if a.bestEffort then (e.message, e.causes)
  else
    (s!"[ERR] failed to set up {a.frontend.text} -> {a.backend.text}", e.message :: e.causes)

/-- Runs the program on a kernel, up to the point where its proxy has nothing left to do. -/
def launch (a : Arguments) (b : Binder Kernel) (k : Kernel) : Start :=
  match a.refusal? with
  | some message => .ended (.failure [] message [])
  | none =>
    match a.make b k with
    | ((.error e, notices), kernel) =>
      let (message, causes) := a.failureText e
      .ended (.failure (logLines a.level kernel (kernel.notices ++ notices)) message causes)
    | ((.ok none, notices), kernel) =>
      .ended ⟨0, false, logLines a.level kernel (kernel.notices ++ notices), ""⟩
    | ((.ok (some proxy), notices), kernel) =>
      let proxy := proxy.withTimeout (a.udpTimeout * Duration.second)
      let notices := kernel.notices ++ notices ++ [.starting proxy.frontend proxy.backend]
      .running a.level kernel (((Session.World.around k.host proxy notices).apply .run).settle)

def start (a : Arguments) (host : Host) : Start :=
  a.launch (Binder.system a.level) (.fresh host [])

end Arguments

/-- What a running program has logged after it is interrupted. -/
def interrupt (w : Session.World) : Session.World :=
  ((w.perform (.log .shuttingDown)).apply .close).settle

def start (host : Host) (argv : List String) : Start :=
  match Arguments.read argv with
  | .error f => .ended (.ofHalt f)
  | .ok a => a.start host

/-- The whole program, interrupted if it keeps running. -/
def run (host : Host) (argv : List String) : Outcome :=
  match start host argv with
  | .ended outcome => outcome
  | .running level kernel w => ⟨0, true, logLines level kernel (interrupt w).notices, ""⟩

end PortForward.CommandLine
