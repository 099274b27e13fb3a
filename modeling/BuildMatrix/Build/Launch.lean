import BuildMatrix.Disk.Basic
import BuildMatrix.Script.Run

/-!
# Launching commands

A command is a program with arguments and variables. The only program there is is the shell, which
runs the script that its first argument names.
-/

namespace BuildMatrix.Build

/-- A program with what it is given. -/
structure Command where
  program : String
  arguments : List String
  vars : List (String × String)
  deriving Repr

/-- The text of a command. -/
def Command.render (c : Command) : String :=
  Text.joinWith " " (c.program :: c.arguments)

/-- What a command leaves behind. -/
structure Finished where
  output : List UInt8
  errors : List UInt8
  isSuccess : Bool
  deriving Repr

/-- What runs commands. -/
abbrev Launcher :=
  Disk → Command → Except DiskError Finished

/-- The program that runs scripts. -/
def shell : String := "/bin/sh"

/-- Runs a script of the disk. -/
def runScript (d : Disk) (name : String) (c : Command) : Finished :=
  match d.readText ⟨name⟩ with
  | .ok text =>
    let p := Script.run ⟨name, c.arguments.tail, c.vars⟩ text
    ⟨p.output, p.errors, p.status = 0⟩
  | .error _ => ⟨[], Script.bytesOf (shell ++ ": 0: cannot open " ++ name ++ ": No such file\n"), false⟩

/-- Runs scripts; there are no other programs. -/
def launchShell : Launcher := fun d c =>
  if c.program = shell then .ok (runScript d (c.arguments.headD "") c) else .error .notFound

end BuildMatrix.Build
