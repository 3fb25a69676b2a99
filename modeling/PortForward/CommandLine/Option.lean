import PortForward.Failure
import PortForward.Text.Numeral

/-!
# Options

The options of the program, their names, and what can be wrong with a command line, with
the wording and the exit status of each fault.
-/

namespace PortForward.CommandLine

/-- An option of the program. -/
inductive Opt
  | frontend
  | backend
  | bestEffort
  | udpTimeout
  | verbose
  | help
  | version
  deriving DecidableEq, Repr

namespace Opt

def all : List Opt := [frontend, backend, bestEffort, udpTimeout, verbose, help, version]

def long : Opt → String
  | frontend => "frontend"
  | backend => "backend"
  | bestEffort => "best-effort"
  | udpTimeout => "udp-timeout"
  | verbose => "verbose"
  | help => "help"
  | version => "version"

def short? : Opt → Option Char
  | frontend => some 'f'
  | backend => some 'b'
  | bestEffort => none
  | udpTimeout => none
  | verbose => some 'v'
  | help => some 'h'
  | version => some 'V'

/-- What the help calls the value of an option that takes one. -/
def valueName? : Opt → Option String
  | frontend => some "FRONTEND"
  | backend => some "BACKEND"
  | udpTimeout => some "UDP_TIMEOUT"
  | _ => none

def takesValue (o : Opt) : Bool := o.valueName?.isSome

def ofLong? (name : List Char) : Option Opt := all.find? (·.long.toList = name)

def ofShort? (c : Char) : Option Opt := all.find? (·.short? = some c)

/-- The option as messages write it, with the name of its value. -/
def text (o : Opt) : String :=
  "--" ++ o.long ++ o.valueName?.elim "" fun v => " <" ++ v ++ ">"

end Opt

/-- What a command line asks for instead of a run, or what is wrong with it. -/
inductive Halt
  | help
  | version
  | missingValue (option : Opt)
  | invalidValue (option : Opt) (value reason : String)
  | unexpectedValue (option : Opt) (value : String)
  | repeated (option : Opt)
  | unknown (argument : String)
  | missing (options : List Opt)
  deriving DecidableEq, Repr

namespace Halt

def message : Halt → String
  | help => ""
  | version => ""
  | missingValue o => s!"error: a value is required for '{o.text}' but none was supplied"
  | invalidValue o v reason => s!"error: invalid value '{v}' for '{o.text}': {reason}"
  | unexpectedValue o v =>
    s!"error: unexpected value '{v}' for '{o.text}' found; no more were expected"
  | repeated o => s!"error: the argument '{o.text}' cannot be used multiple times"
  | unknown a => s!"error: unexpected argument '{a}' found"
  | missing os =>
    "error: the following required arguments were not provided:" ++
      String.join (os.map fun o => "\n  " ++ o.text)

/-- The exit status: asking for help or the version is no failure. -/
def status : Halt → Nat
  | help | version => 0
  | _ => 2

end Halt

end PortForward.CommandLine
