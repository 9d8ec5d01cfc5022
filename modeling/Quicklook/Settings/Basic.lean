import Quicklook.Event

/-!
# Settings

Which renditions are made, how large they are, which sources are left alone, and how much
of the machine is used.

Main statements: an accepted configuration has a spool threshold and at least one worker
(`validate_eq_ok_iff`), and the side of overviews that is used is a positive number
(`value_effectiveSide`).
-/

namespace Quicklook

/-! ## §1 Groups of settings -/

/-- What is rendered. -/
structure Rendering where
  createOverview : Bool
  /-- Whether recompressed originals are made. -/
  storeOriginal : Bool
  /-- The bound on the longer edge of an overview, if it can be used as one. -/
  overviewSide : Float
  /-- The most whole megabytes that a source may declare. -/
  maxSourceMb : UInt64
deriving BEq

/-- How much of the machine is used. -/
structure Workload where
  /-- The most workers; as many as there are cores if it is not given. -/
  maxProcesses : Option UInt64
  /-- The most bytes of a source that are kept in memory. -/
  spoolThreshold : UInt64
deriving BEq

/-- All settings. -/
structure Settings where
  rendering : Rendering
  workload : Workload
deriving BEq

/-! ## §2 Defaults -/

/-- The bound on overviews where there is no other. -/
def Rendering.defaultSide : Float :=
  1024

/-- All renditions, of sources up to 120 megabytes. -/
def Rendering.default : Rendering :=
  ⟨true, true, defaultSide, 120⟩

/-- All cores, and a megabyte of memory for a source. -/
def Workload.default : Workload :=
  ⟨none, 1048576⟩

/-- The settings where nothing is configured. -/
def Settings.default : Settings :=
  ⟨.default, .default⟩

/-! ## §3 Use -/

/-- Whether a side length can bound an overview: it is finite and greater than zero. -/
def Rendering.isUsable (side : Float) : Bool :=
  side.isFinite && decide (0 < side)

/-- The bound on overviews that is used: the configured one if it can be, otherwise the
    default, and that is reported. -/
def Rendering.effectiveSide (s : Rendering) : Logged Float :=
  if isUsable s.overviewSide then pure s.overviewSide
  else do
    Logged.report (.overviewSideInvalid s.overviewSide defaultSide)
    pure defaultSide

/-- The bound is the configured one exactly where that can be used. -/
theorem Rendering.value_effectiveSide (s : Rendering) :
    s.effectiveSide.value = if isUsable s.overviewSide then s.overviewSide else defaultSide := by
  unfold effectiveSide
  split <;> rfl

/-- The number of workers on a machine with so many cores. -/
def Workload.workers (s : Workload) (cores : Nat) : Nat :=
  match s.maxProcesses with
  | none => cores
  | some n => min n.toNat cores

/-! ## §4 Validity -/

/-- A setting that nothing can be run with. -/
inductive InvalidSetting where
  | zeroThreshold
  | zeroProcesses
deriving Repr, DecidableEq

/-- What is wrong with a setting. -/
def InvalidSetting.message : InvalidSetting → String
  | .zeroThreshold => "processing.spool_threshold_bytes must be non-zero"
  | .zeroProcesses => "processing.max_processes must be non-zero"

/-- Accepts settings that can be run with. The threshold is looked at first. -/
def Settings.validate (s : Settings) : Except InvalidSetting Unit :=
  if s.workload.spoolThreshold = 0 then .error .zeroThreshold
  else if s.workload.maxProcesses = some 0 then .error .zeroProcesses
  else .ok ()

/-- Which settings are accepted. -/
theorem Settings.validate_eq_ok_iff (s : Settings) :
    s.validate = .ok () ↔
      s.workload.spoolThreshold ≠ 0 ∧ s.workload.maxProcesses ≠ some 0 := by
  unfold validate
  split <;> (try split) <;> simp_all

end Quicklook
