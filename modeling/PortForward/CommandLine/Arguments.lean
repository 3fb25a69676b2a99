import PortForward.CommandLine.Option
import PortForward.Notice
import PortForward.Text.Cut

/-!
# Reading a command line

Arguments are read from the left. A value is only looked at when the next known option, or
the end, shows that it is complete; so an unknown option that follows a bad value is
reported first. An option may be given once.
-/

namespace PortForward.CommandLine

open Text

/-- What a command line says. The timeout is in seconds. -/
structure Arguments where
  frontend : Address
  backend : Address
  bestEffort : Bool
  udpTimeout : Nat
  verbose : Bool
  deriving DecidableEq, Repr

/-- Seconds after which an idle client loses its backend socket, unless the command line
says otherwise. -/
def defaultTimeout : Nat := 90

/-- A command line read in part: the options seen, and the last option that takes a value,
with the value if it has come. -/
structure Reading where
  frontend : Option Address
  backend : Option Address
  bestEffort : Bool
  udpTimeout : Option Nat
  verbose : Bool
  pending : Option (Opt × Option String)
  deriving DecidableEq, Repr

namespace Reading

def empty : Reading := ⟨none, none, false, none, false, none⟩

/-- An option's value as it is read, or the reason for refusing it. -/
def valueOf {α ε : Type} (o : Opt) (value : String) (reason : ε → String) (result : Except ε α) :
    Except Halt α :=
  result.mapError fun e => .invalidValue o value (reason e)

def assign (r : Reading) (o : Opt) (value : String) : Except Halt Reading :=
  match o with
  | .frontend =>
    if r.frontend.isSome then .error (.repeated o)
    else
      (valueOf o value Failure.message (Address.read value)).map fun a =>
        { r with frontend := some a }
  | .backend =>
    if r.backend.isSome then .error (.repeated o)
    else
      (valueOf o value Failure.message (Address.read value)).map fun a =>
        { r with backend := some a }
  | .udpTimeout =>
    if r.udpTimeout.isSome then .error (.repeated o)
    else
      (valueOf o value Numeral.Refusal.message
        (Numeral.readChecked 18446744073709551616 value.toList)).map fun n =>
          { r with udpTimeout := some n }
  | _ => .error (.unexpectedValue o value)

/-- Gives the pending option its value, which must have come by now. -/
def resolve (r : Reading) : Except Halt Reading :=
  match r.pending with
  | none => .ok r
  | some (o, none) => .error (.missingValue o)
  | some (o, some value) => { r with pending := none }.assign o value

def raise (r : Reading) (o : Opt) : Except Halt Reading :=
  match o with
  | .help => .error .help
  | .version => .error .version
  | .bestEffort =>
    if r.bestEffort then .error (.repeated o) else .ok { r with bestEffort := true }
  | .verbose => if r.verbose then .error (.repeated o) else .ok { r with verbose := true }
  | _ => .error (.missingValue o)

/-- Takes an option for which a value may be attached. -/
def take (r : Reading) (o : Opt) (attached : Option String) : Except Halt Reading :=
  match o.takesValue, attached with
  | true, some value => r.resolve.bind (·.assign o value)
  | true, none => r.resolve.map fun r => { r with pending := some (o, none) }
  | false, some value => .error (.unexpectedValue o value)
  | false, none => r.resolve.bind (·.raise o)

/-- Takes the letters of one argument: options without a value may share it, and the rest
after one with a value is that value, less an equals sign in front. -/
def takeLetters (r : Reading) : List Char → Except Halt Reading
  | [] => .ok r
  | c :: cs =>
    match Opt.ofShort? c with
    | none => .error (.unknown (String.ofList ['-', c]))
    | some o =>
      if o.takesValue then
        match cs with
        | [] => r.take o none
        | '=' :: cs => r.take o (some (String.ofList cs))
        | cs => r.take o (some (String.ofList cs))
      else (r.take o none).bind (·.takeLetters cs)

def takeLong (r : Reading) (cs : List Char) : Except Halt Reading :=
  let (name, value) := match cut? '=' cs with
    | some (name, value) => (name, some (String.ofList value))
    | none => (cs, none)
  match Opt.ofLong? name with
  | none => .error (.unknown ("--" ++ String.ofList name))
  | some o => r.take o value

/-- Takes an argument that is no option: the value that an option waits for. -/
def takePlain (r : Reading) (argument : String) : Except Halt Reading :=
  match r.pending with
  | some (o, none) => .ok { r with pending := some (o, some argument) }
  | _ => .error (.unknown argument)

def takeArgument (r : Reading) (argument : String) : Except Halt Reading :=
  match argument.toList with
  | '-' :: '-' :: cs => r.takeLong cs
  | '-' :: c :: cs => r.takeLetters (c :: cs)
  | _ => r.takePlain argument

/-- Takes all arguments. After two dashes alone nothing may follow. -/
def takeAll (r : Reading) : List String → Except Halt Reading
  | [] => r.resolve
  | "--" :: [] => r.resolve
  | "--" :: argument :: _ => .error (.unknown argument)
  | argument :: rest => (r.takeArgument argument).bind (·.takeAll rest)

/-- What the options seen say together; both addresses are needed. -/
def complete (r : Reading) : Except Halt Arguments :=
  match r.frontend, r.backend with
  | some frontend, some backend =>
    .ok
      { frontend
        backend
        bestEffort := r.bestEffort
        udpTimeout := r.udpTimeout.getD defaultTimeout
        verbose := r.verbose }
  | f, b =>
    .error (.missing
      ((if f.isNone then [.frontend] else []) ++ if b.isNone then [.backend] else []))

end Reading

namespace Arguments

def read (argv : List String) : Except Halt Arguments :=
  (Reading.empty.takeAll argv).bind (·.complete)

/-- Why a combination of options cannot be honoured: a failed listen on vsock is never
skipped. -/
def refusal? (a : Arguments) : Option String :=
  if a.bestEffort ∧ a.frontend.transport = .vsock then
    some "[ERR] --best-effort only applies to tcp and udp frontends"
  else none

def level (a : Arguments) : Level := if a.verbose then .debug else .info

end Arguments

end PortForward.CommandLine
