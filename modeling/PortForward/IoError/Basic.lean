import PortForward.IoError.Errno
import PortForward.IoError.Kind

/-!
# IO errors

A failed system call, a bare kind, or an error made by a program: from a message, or around
another IO error. A wrapper shows its own kind and the message of the error inside.
-/

namespace PortForward

/-- A failure of an input or output operation. -/
inductive IoError
  | os (errno : Int)
  | bare (kind : IoErrorKind)
  | custom (kind : IoErrorKind) (message : String)
  | wrapped (kind : IoErrorKind) (inner : IoError)
  deriving DecidableEq, Repr, Inhabited

namespace IoError

def kind : IoError → IoErrorKind
  | os n => Errno.kind n
  | bare k => k
  | custom k _ => k
  | wrapped k _ => k

def errno? : IoError → Option Int
  | os n => some n
  | _ => none

def message : IoError → String
  | os n => s!"{Errno.message n} (os error {n})"
  | bare k => k.description
  | custom _ m => m
  | wrapped _ e => e.message

def innermost : IoError → IoError
  | wrapped _ e => e.innermost
  | e => e

end IoError

end PortForward
