import PortForward.CommandLine.Arguments

/-!
# Help

What the program says about itself, and the text of every fault of a command line.
-/

namespace PortForward.CommandLine

def programName : String := "portproxy"

def versionLine : String := programName ++ " 0.1.0"

def about : String := "A lightweight TCP, UDP and vsock port-forwarding proxy"

namespace Opt

def description : Opt → String
  | frontend => "Frontend address to listen on (tcp:HOST:PORT, udp:HOST:PORT, vsock:any:PORT)"
  | backend => "Backend address to forward to (tcp:HOST:PORT, udp:HOST:PORT, vsock:CID:PORT)"
  | bestEffort =>
    "Skip the proxy instead of failing when the frontend address doesn't exist here " ++
      "(tcp and udp frontends only)"
  | udpTimeout =>
    s!"Seconds an idle UDP client keeps its backend socket [default: {defaultTimeout}]"
  | verbose => "Verbose logging"
  | help => "Print help"
  | version => "Print version"

/-- The names of an option, as they stand in the first column of the help. -/
def names (o : Opt) : String :=
  (match o.short? with
    | some c => String.ofList [' ', ' ', '-', c, ',', ' ']
    | none => "      ") ++ o.text

end Opt

/-- The names of an option and its help, in two columns. -/
def helpLine (o : Opt) : String :=
  let width := (Opt.all.map (·.names.length)).foldl max 0
  o.names ++ "".pushn ' ' (width - o.names.length + 2) ++ o.description

def helpLines : List String :=
  [about,
   "",
   s!"Usage: {programName} [OPTIONS] {Opt.frontend.text} {Opt.backend.text}",
   "",
   "Options:"] ++ Opt.all.map helpLine

/-- All that the program says when it does not run because of its command line. -/
def Halt.lines : Halt → List String
  | help => helpLines
  | version => [versionLine]
  | f => [f.message]

def Halt.summary (f : Halt) : String := Text.firstParagraph ("\n".intercalate f.lines)

end PortForward.CommandLine
