import Rendezvous.CommandLine.Run

/-! # The program

Reads the command line, writes what it asks for and ends with its status.
-/

open Rendezvous

def main (arguments : List String) : IO UInt32 := do
  let how := (CommandLine.run .isolated arguments).exit
  IO.print how.stdout
  IO.eprint how.stderr
  return UInt32.ofNat how.status
