import SignalAccess.Failure.Basic
import SignalAccess.Text.Utf8
/-!
# The machine

What a request can learn from the machine that handles it: its environment, its files and whether a
program accepts one of them. Every answer is a value, so the same request on the same machine has
the same result.
-/
namespace SignalAccess

/-- The answers of a machine. -/
structure Machine where
  /-- The value of an environment variable. -/
  environment? : Text → Option Text
  /-- The working directory. -/
  directory : Except Failure Text
  /-- The contents of a file, or what keeps it from being read. -/
  contents : Text → Except SystemFault Bytes
  /-- The path without links and relative elements of something that exists. -/
  canonical? : Text → Option Text
  /-- The target of a symbolic link. -/
  linkTarget? : Text → Option Text
  /-- Whether a program, run with arguments, accepts. -/
  accepts : Text → List Text → Bool

namespace Machine

/-- The machine without variables, files and programs. -/
def bare : Machine where
  environment? _ := none
  directory := .ok ['/']
  contents _ := .error (.numbered SystemCode.notFound)
  canonical? _ := none
  linkTarget? _ := none
  accepts _ _ := false

/-- The text of a file, which must be UTF-8. -/
def textOf (machine : Machine) (path : Text) : Except Failure Text :=
  match machine.contents path with
  | .error fault => .error (.system fault)
  | .ok bytes =>
    match Text.ofUtf8? bytes with
    | some text => .ok text
    | none => .error (.system (.described "stream did not contain valid UTF-8".toList))

/-- Whether a command line, with more arguments behind its own, accepts. A blank one does not. -/
def commandAccepts (machine : Machine) (command : Text) (arguments : List Text) : Bool :=
  match command.words with
  | [] => false
  | program :: own => machine.accepts program (own ++ arguments)

end Machine

end SignalAccess
