import JavaAtlas.Check
import JavaAtlas.Project

namespace JavaAtlas

/-! # A service for one project

The service has at most one project open. Queries are put to it as to any host; pauses give the
worker the time to do what is left for it.
-/

/-- A service with the disk on which its project is. -/
structure Service where
  disk : Disk
  config : Config
  project : Option Project

namespace Service

/-- Opens a project. -/
def opening (disk : Disk) (config : Config) (root indexPath : String) (options : ProjectOptions) :
    Except Failure Service := do
  let disk ← disk.placeIndex indexPath
  return { disk, config, project := some (.ofPaths disk config root options) }

/-- The service when the worker has done all that is left for it. -/
def settled (s : Service) (time : Nat) : Service :=
  { s with project := s.project.map (·.settle s.disk time) }

/-- Opens a project and waits until it is indexed. -/
def openingReady (disk : Disk) (config : Config) (root indexPath : String)
    (options : ProjectOptions) : Except Failure Service := do
  return (← opening disk config root indexPath options).settled 0

/-- The only coordinator of a service. -/
def coordinator : Nat := 0

/-- What a read of the index shows. -/
def read : StateM Service (Except QueryError IndexView) := do
  let s ← get
  let start (p : Project) : Id (Except Failure IndexView) := pure (.ok (p.view s.disk))
  let reads : Reads Project IndexView := { project := fun _ => s.project }
  return ((Reads.read start coordinator pure).run reads).1

/-- Lets the worker of the open project be asked for something. -/
def onEngine (ask : Engine → Engine × Except Failure Unit) :
    StateM Service (Except Failure Unit) := do
  let s ← get
  match s.project with
  | none => return .ok ()
  | some p =>
    let (engine, outcome) := ask p.engine
    set { s with project := some { p with engine } }
    return outcome

/-- The service as a host. -/
def host : Host Service where
  indexState := return (← get).project.map (·.engine.indexState)
  read := read
  artifact name := do
    let s ← get
    match s.project with
    | none => return .ok none
    | some p => return p.classpath.load s.disk name
  isOpen path := return ((← get).project.map (·.engine.isOpen path)).getD false
  requestOpen path := onEngine (·.submit (.openUnit path))
  requestAnalysis path := onEngine (·.submit (.analyze path))
  isCommitted path := return ((← get).project.map (·.engine.isCommitted path)).getD true
  markers view path := return .ok (view.markers path)
  pause time := modify (·.settled time)

/-- How long the parts of a check take. -/
def checkOptions (config : Config) : CheckOptions :=
  { timeout := config.checkTimeout
    poll := config.pollInterval
    openDelay := config.openDelay
    triggerDelay := config.triggerDelay }

/-- The open project. -/
def theProject : Query Service Project := do
  match (← get).project with
  | some p => return p
  | none => throw .noProjectOpen

/-- What a read of the index shows, as part of a query. -/
def theView : Query Service IndexView := ExceptT.mk read

end Service

end JavaAtlas
