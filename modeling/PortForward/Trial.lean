import PortForward.Construction

/-!
# Trials

A proxy set up in a given way and then closed a number of times, each close followed by an
attempt to run. A trial shows what each factory makes of a frontend, a backend and the
answers of the kernel, down to the listen calls that it made and what it logged.
-/

namespace PortForward

/-- A factory with the addresses it is given. -/
inductive Factory
  | any (frontend backend : Address)
  | ip (frontend backend : Address)
  | bestEffort (frontend backend : Address)
  | vsock (frontend : VsockEndpoint) (backend : Address)
  deriving DecidableEq, Repr

/-- The proxy that a factory makes, if it makes one, and the notices of its own. -/
def Factory.make {σ : Type} (f : Factory) (b : Binder σ) (level : Level) (s : σ) :
    (Except Failure (Option Proxy) × List Notice) × σ :=
  match f with
  | any f t => let (p, s) := Proxy.make b level f t s; ((p.map some, []), s)
  | ip f t => let (p, s) := Proxy.makeIp b level f t s; ((p.map some, []), s)
  | bestEffort f t => Proxy.makeBestEffort b level f t s
  | vsock f t => let (p, s) := Proxy.makeVsock b level f t s; ((p.map some, []), s)

/-- What a trial showed. -/
structure Trial where
  outcome : Except Failure (Option Proxy)
  kernel : Kernel
  notices : List Notice
  calls : List BindCall

namespace Trial

def onSystem (factory : Factory) (k : Kernel) : Trial :=
  let ((outcome, notices), k, calls) := factory.make (Binder.system .trace).noting .trace (k, [])
  ⟨outcome, k, k.notices ++ notices, calls⟩

/-- A trial with sockets that are handed out on the loopback address, or with listen calls
that all fail. -/
def onScript (factory : Factory) (failure : Option IoError) (k : Kernel) : Trial :=
  let binder := failure.elim (Binder.loopback .trace) (Binder.loopback .trace).failing
  let ((outcome, notices), k, calls) := factory.make binder.noting .trace (k, [])
  ⟨outcome, k, k.notices ++ notices, calls⟩

end Trial

/-- Closes a proxy and tries to run it, the given number of times: whether it was closed
after each close, and what each run came to. -/
def Proxy.closings : Nat → Proxy → List (Bool × Run)
  | 0, _ => []
  | n + 1, p =>
    let closed := p.close
    let (p, _) := closed.run
    (closed.isClosed, p.runs.getLastD .running) :: p.closings n

end PortForward
