import LoadGen.Fault.Info
import LoadGen.Run.Options

/-!
# Why a run fails

A run ends with an error when its options are refused, when the backend fails at one of its stages,
when one of the run's own tasks dies, or when the report of the run cannot be written.
-/

namespace LoadGen

/-- What a backend is asked for besides calls. -/
inductive Stage
  | connect
  | health
  | close
  deriving DecidableEq, Repr

def Stage.name : Stage → String
  | .connect => "connect"
  | .health => "health"
  | .close => "close"

/-- What a backend failed to do at a stage. -/
def Stage.purpose : Stage → String
  | .connect => "connect"
  | .health => "pass health check"
  | .close => "close"

inductive Task
  | generator
  | worker
  | collector
  deriving DecidableEq, Repr

def Task.name : Task → String
  | .generator => "generator"
  | .worker => "worker"
  | .collector => "collector"

inductive RunError
  | backend (name : String) (stage : Stage) (chain : Fault.Chain)
  | config (fault : ConfigFault)
  | task (task : Task)
  | report

def RunError.message : RunError → String
  | .backend name stage _ => name ++ " adapter failed to " ++ stage.purpose
  | .config f => "invalid configuration: " ++ f.message
  | .task t => t.name ++ " task failed"
  | .report => "failed to write report"

end LoadGen
