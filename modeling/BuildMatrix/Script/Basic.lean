/-!
# Scripts

A script is a list of commands, each joined to the one before it. A word is made of characters and
parameters, quoted or not.
-/

namespace BuildMatrix.Script

/-- A part of a word. -/
inductive Part
  | char (c : Char) (isQuoted : Bool)
  | param (name : String) (isQuoted : Bool)
  deriving DecidableEq, Repr

/-- A word. -/
abbrev Word :=
  List Part

/-- When a command is run, by the status of the one before it. -/
inductive Link
  | always
  | ifOk
  | ifFailed
  deriving DecidableEq, Repr

/-- Output for one stream that goes to another one. -/
structure Redirect where
  source : Nat
  target : Nat
  deriving DecidableEq, Repr

/-- A command. -/
inductive Command
  | simple (words : List Word) (redirects : List Redirect)
  /-- Runs the first branch with a pattern that the subject matches. -/
  | choose (subject : Word) (branches : List (List Word × List (Link × Command)))
  deriving Repr

/-- The piece that a text without quotes is. -/
def wordOf (s : String) : Word :=
  s.toList.map fun c => .char c false

end BuildMatrix.Script
