import PortForward.CommandLine.Program

/-!
# Main

The program at a terminal, on an isolated host. A proxy that runs is interrupted when the
standard input ends.
-/

open PortForward

/-- Reads until the input ends. -/
partial def waitForEnd (input : IO.FS.Stream) : IO Unit := do
  let line ← input.getLine
  if line.isEmpty then return () else waitForEnd input

def main (argv : List String) : IO UInt32 := do
  match CommandLine.start Host.isolated argv with
  | .ended outcome =>
    outcome.output.forM IO.println
    unless outcome.errors.isEmpty do IO.eprintln outcome.errors
    return UInt32.ofNat outcome.status
  | .running level kernel world =>
    (CommandLine.logLines level kernel world.notices).forM IO.println
    waitForEnd (← IO.getStdin)
    let rest := (CommandLine.interrupt { world with notices := [] }).notices
    (CommandLine.logLines level kernel rest).forM IO.println
    return 0
