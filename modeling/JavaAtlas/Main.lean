import JavaAtlas.CommandLine.Run

namespace JavaAtlas.CommandLine

/-! # The program

The outer layer reads the environment and the files that a run may look at, and prints what the
run leaves. A service answers each line as it comes.
-/

/-- The variables of the environment that hold settings. -/
def settingNames : List String :=
  [ "CODEPROBE_POOL_SIZE", "CODEPROBE_POOL_MIN_IDLE", "CODEPROBE_CHECK_TIMEOUT_MS",
    "CODEPROBE_CHECK_POLL_MS", "CODEPROBE_OPEN_DELAY_MS", "CODEPROBE_TRIGGER_DELAY_MS",
    "CODEPROBE_COMMIT_DELAY_MS", "CODEPROBE_READY_TIMEOUT_SECS", "CODEPROBE_CLASSPATH",
    "CODEPROBE_LIBRARY_ROOTS"]

/-- The settings in the environment. -/
def loadConfig : IO Config := do
  let found ← settingNames.filterMapM fun name => do
    return (← IO.getEnv name).map (name, ·)
  return .ofEnv found

/-- Whether the content of a file matters. -/
def isRelevant (path : String) : Bool :=
  [".gitignore", ".ignore", "exclude"].contains (Path.fileName path) ||
    ["java", "class", "jar", "zip"].contains ((Path.extension? path).getD "")

/-- A file with its content. -/
def loadFile (path : String) : IO (List (String × DiskEntry)) := do
  match ← (IO.FS.readBinFile path).toBaseIO with
  | .ok content => return [(path, .file content)]
  | .error (.noFileOrDirectory ..) => return []
  | .error _ => return [(path, .locked)]

/-- What is under an absolute path. -/
partial def loadTree (path : String) : IO (List (String × DiskEntry)) := do
  let directory : IO.FS.DirEntry := { root := path, fileName := "." }
  match ← directory.path.readDir.toBaseIO with
  | .ok entries =>
    let below ← entries.toList.mapM fun entry => loadTree (Path.join path entry.fileName)
    return (path, .directory) :: below.flatten
  | .error _ => if isRelevant path then loadFile path else return [(path, .file .empty)]

/-- The rules in the directories above a path. -/
def loadRulesAbove (path : String) : IO (List (String × DiskEntry)) := do
  let found ← (Ignore.directoriesAbove path).mapM fun directory => do
    let files ← [".ignore", ".gitignore", ".git/info/exclude"].mapM fun name =>
      loadFile (Path.join directory name)
    return (directory, DiskEntry.directory) :: files.flatten
  return found.flatten

/-- The disk as far as a task may look at it. -/
def loadDisk (i : Invocation) (config : Config) : IO Disk := do
  let workingDirectory := (← IO.getEnv "PWD").getD "/"
  let absolute (path : String) : String := Path.normalize (Path.join workingDirectory path)
  let options := optionsFor config i.project
  let roots := (i.project.repo :: options.libraries).map absolute
  let trees ← (roots ++ options.classpath.map absolute).mapM loadTree
  let rules ← roots.mapM loadRulesAbove
  let single := match i.task with
    | .request _ _ (some file) _ => [file, indexPath i.project]
    | _ => [indexPath i.project]
  let files ← (single.map absolute).mapM loadFile
  return { entries := files.flatten ++ trees.flatten ++ rules.flatten, workingDirectory }

/-- Answers lines as they come. If the project is watched, all files are looked at again before
each answer. -/
partial def serveLines (i : Invocation) (config : Config) (watched : Bool) (s : Service)
    (input output : IO.FS.Stream) : IO Unit := do
  let line ← input.getLine
  if line.isEmpty then return
  let s ← if watched then do
      let (_, s) := (Service.onEngine (·.submit .rescan)).run { s with disk := ← loadDisk i config }
      pure (s.settled 0)
    else pure s
  let (response, s) := Request.answerLine s line
  if let some response := response then
    output.putStrLn response.compress
    output.flush
  serveLines i config watched (s.settled config.commitDelay) input output

/-- Prints what a run leaves. -/
def finish (outcome : Outcome) : IO UInt32 := do
  IO.print outcome.output
  IO.eprint outcome.errors
  return outcome.exitCode.toUInt32

end JavaAtlas.CommandLine

open JavaAtlas CommandLine in
/-- Runs the program. -/
def main (args : List String) : IO UInt32 := do
  match parse args with
  | .error e => finish (usageOutcome args e)
  | .ok i =>
    let config ← loadConfig
    let disk ← loadDisk i config
    match i.task with
    | .serve mode debounce =>
      match startServing { disk, config } i.project mode debounce with
      | .error e => finish (failed (failureReport e))
      | .ok (service, watcher) =>
        serveLines i config watcher.isSome service (← IO.getStdin) (← IO.getStdout)
        return 0
    | _ => finish (perform { disk, config } i)
