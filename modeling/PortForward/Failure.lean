import PortForward.Address.Printer
import PortForward.Address.Reader
import PortForward.IoError.Basic

/-!
# Failures

The causes for which setting up or running a proxy fails, their wording, and the one soft
failure: an IP address to listen on that does not exist here. Reading an address is here
too, because a text that is refused is such a failure.
-/

namespace PortForward

/-- Why a proxy was not set up, or stopped. -/
inductive Failure
  | unsupported (frontend backend : Transport)
  | listen (address : Address) (cause : IoError)
  | invalidAddress (text : String)
  | alreadyStarted
  | closed
  | io (cause : IoError)
  deriving DecidableEq, Repr

namespace Failure

def message : Failure → String
  | unsupported f b => s!"unsupported protocol: {f.text} frontend with {b.text} backend"
  | listen a e => s!"failed to listen on {a.text}: {e.message}"
  | invalidAddress t => s!"invalid address: {t}"
  | alreadyStarted => "proxy is already running"
  | closed => "proxy is closed"
  | io e => s!"IO error: {e.message}"

/-- The messages of the causes, outermost first. An IO error made by a program shows the
error inside as itself, so a chain never goes deeper than one. -/
def causes : Failure → List String
  | listen _ e => [e.message]
  | io e => [e.message]
  | _ => []

/-- The frontend address does not exist here. Only a failed listen on an IP address counts,
and of its error only the outermost kind. -/
def isSoft : Failure → Bool
  | listen a e => a.transport ≠ .vsock ∧ e.kind = .addrNotAvailable
  | _ => false

end Failure

/-- The address that a text describes; a refusal carries the text as given. -/
def Address.read (text : String) : Except Failure Address :=
  match ofText? text with
  | some a => .ok a
  | none => .error (.invalidAddress text)

end PortForward
