/-
  DepGraph — reports of progress.

  A stage of a run says how far it is.  A long stage does not report every step:
  it reports when the part of the work that is done comes into another bucket of
  a fixed size, and when all of it is done.

  * `Progress`: a report.
  * `Meter`: how far a stage is; `Meter.advance` moves it on and tells whether
    that is reported.
  * `Meter.reports`: the reports of a stage that is done step by step.
-/

namespace DepGraph

/-- A report: how much of a stage is done. -/
structure Progress where
  stage : String
  current : Int
  total : Int
  deriving DecidableEq, Repr

/-- A report as text. -/
def Progress.text (p : Progress) : String :=
  p.stage ++ ": " ++ toString p.current ++ "/" ++ toString p.total

/-- How far a stage is. -/
structure Meter where
  total : Int
  /-- The size of a bucket. -/
  step : Int
  current : Int
  /-- The bucket of the last report. -/
  bucket : Int
  deriving DecidableEq, Repr

namespace Meter

/-- A stage that has not begun; a bucket is a percentage of the work. -/
def start (total percent : Int) : Meter :=
  ⟨total, max 1 (Int.fdiv (total * percent) 100), 0, -1⟩

/-- Move on by a number of steps, and tell whether that is reported. -/
def advance (m : Meter) (delta : Int) : Meter × Bool :=
  let current := m.current + delta
  let bucket := Int.fdiv current m.step
  if bucket ≠ m.bucket ∨ current = m.total then ({ m with current, bucket }, true)
  else ({ m with current }, false)

/-- The reports of the last `n` single steps of a stage. -/
def reportsFrom (stage : String) : Nat → Meter → List Progress
  | 0, _ => []
  | n + 1, m =>
    let (m, isReported) := m.advance 1
    if isReported then ⟨stage, m.current, m.total⟩ :: reportsFrom stage n m
    else reportsFrom stage n m

/-- The reports of a stage of `n` single steps. -/
def reports (stage : String) (n : Nat) : List Progress := reportsFrom stage n (start n 1)

end Meter

end DepGraph
