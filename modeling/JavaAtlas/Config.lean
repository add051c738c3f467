import JavaAtlas.Text.Blank

namespace JavaAtlas

/-! # Settings

Settings come from environment variables; what is not set, or not a number, has its default.
-/

/-- The settings. Times are in milliseconds if nothing else is said. -/
structure Config where
  poolSize : Nat := 10
  poolMinIdle : Nat := 2
  /-- How long diagnostics may take to settle. -/
  checkTimeout : Nat := 5000
  checkPoll : Nat := 250
  /-- How long to wait after a file has been opened. -/
  openDelay : Nat := 300
  /-- How long to wait after an analysis has been asked for. -/
  triggerDelay : Nat := 100
  /-- How long an edited text stays uncommitted. -/
  commitDelay : Nat := 150
  /-- How long single commands wait for the first index, in seconds. -/
  readyTimeout : Nat := 120
  classpath : List String := []
  libraryRoots : List String := []
deriving DecidableEq, Inhabited, Repr

/-- The time between polls is never zero. -/
def Config.pollInterval (c : Config) : Nat := max c.checkPoll 1

/-- A number without sign, or with a plus. -/
def parseNumber? (limit : Nat) (text : String) : Option Nat :=
  let digits := match text.toList with
    | '+' :: rest => rest
    | cs => cs
  if digits.isEmpty || !digits.all Char.isDigit then none
  else
    let n := digits.foldl (fun n c => n * 10 + (c.toNat - '0'.toNat)) 0
    if n < limit then some n else none

/-- The parts of a list of paths, without empty ones. -/
def splitPaths (text : String) : List String := (text.splitOn ":").filter (· ≠ "")

/-- The settings in an environment. -/
def Config.ofEnv (env : List (String × String)) : Config :=
  let number (key : String) (limit default : Nat) : Nat :=
    ((env.lookup key).bind fun v => parseNumber? limit (trim v)).getD default
  let word := 4294967296
  let long := 18446744073709551616
  let d : Config := {}
  { poolSize := number "CODEPROBE_POOL_SIZE" word d.poolSize
    poolMinIdle := number "CODEPROBE_POOL_MIN_IDLE" word d.poolMinIdle
    checkTimeout := number "CODEPROBE_CHECK_TIMEOUT_MS" long d.checkTimeout
    checkPoll := number "CODEPROBE_CHECK_POLL_MS" long d.checkPoll
    openDelay := number "CODEPROBE_OPEN_DELAY_MS" long d.openDelay
    triggerDelay := number "CODEPROBE_TRIGGER_DELAY_MS" long d.triggerDelay
    commitDelay := number "CODEPROBE_COMMIT_DELAY_MS" long d.commitDelay
    readyTimeout := number "CODEPROBE_READY_TIMEOUT_SECS" long d.readyTimeout
    classpath := ((env.lookup "CODEPROBE_CLASSPATH").map splitPaths).getD []
    libraryRoots := ((env.lookup "CODEPROBE_LIBRARY_ROOTS").map splitPaths).getD [] }

end JavaAtlas
