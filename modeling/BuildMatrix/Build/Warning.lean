import BuildMatrix.Regular.Parser

/-!
# Warnings in build logs

A line of a log is a warning if it says `error:` or `warning:` in letters of any case, unless a
pattern says that it does not count.
-/

namespace BuildMatrix.Build

/-- Whether a line looks like a warning. -/
def looksLikeWarning (line : String) : Bool :=
  let cs := line.toList.map Char.toLower
  Text.occursIn "error:".toList cs || Text.occursIn "warning:".toList cs

/-- The lines of a log that are warnings and that no pattern ignores. -/
def warnings (ignored : List Regular) (lines : List String) : List String :=
  lines.filter fun line => looksLikeWarning line && !ignored.any (·.occursIn line)

/-- The patterns of warnings that do not count; the first bad one is an error. -/
def ignoredPatterns : List String → Except String (List Regular)
  | [] => .ok []
  | p :: ps =>
    match Regular.parse? p with
    | none => .error p
    | some r => (ignoredPatterns ps).map (r :: ·)

end BuildMatrix.Build
