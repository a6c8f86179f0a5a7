import Flowgraph.Countdown.CommandLine

/-!
# The countdown as a program

The arguments are read, the transcript is worked out and written. A command line that is refused
ends the program with code 2.
-/

/-- Run the countdown from the command line. -/
def main (arguments : List String) : IO UInt32 := do
  match Flowgraph.Countdown.transcriptOf arguments with
  | .ok transcript =>
    for line in transcript.stdout do IO.println line
    for line in transcript.stderr do IO.eprintln line
    return transcript.code
  | .error error =>
    IO.eprintln s!"error: {error.message}"
    IO.eprintln "usage: countdown COUNT [--fuel N]"
    return 2
