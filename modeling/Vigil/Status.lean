/-!
# Status vocabularies

A cluster and an update of a cluster each report one of a fixed set of words. One word of the first
set is never reported: it is how a caller asks for the cluster to be gone.
-/

namespace Vigil

/-- The states of a cluster. -/
inductive ClusterStatus where
  | creating
  | active
  | deleting
  | failed
  | updating
  | pending
  /-- The cluster does not exist; only ever a goal. -/
  | gone
  deriving DecidableEq, Repr, Inhabited

/-- The states of an update of a cluster. -/
inductive UpdateStatus where
  | inProgress
  | failed
  | cancelled
  | successful
  deriving DecidableEq, Repr, Inhabited

namespace ClusterStatus

def all : List ClusterStatus := [creating, active, deleting, failed, updating, pending, gone]

def name : ClusterStatus → String
  | creating => "CREATING"
  | active => "ACTIVE"
  | deleting => "DELETING"
  | failed => "FAILED"
  | updating => "UPDATING"
  | pending => "PENDING"
  | gone => "DELETED_OR_NOT_EXIST"

def word : ClusterStatus → String
  | gone => "DELETED/ORNOTEXIST"
  | s => s.name

def ofWord? (w : String) : Option ClusterStatus := all.find? fun s => s.word == w

end ClusterStatus

namespace UpdateStatus

def all : List UpdateStatus := [inProgress, failed, cancelled, successful]

def name : UpdateStatus → String
  | inProgress => "IN_PROGRESS"
  | failed => "FAILED"
  | cancelled => "CANCELLED"
  | successful => "SUCCESSFUL"

def word : UpdateStatus → String
  | inProgress => "InProgress"
  | failed => "Failed"
  | cancelled => "Cancelled"
  | successful => "Successful"

def ofWord? (w : String) : Option UpdateStatus := all.find? fun s => s.word == w

end UpdateStatus

/-- The words that end the watch of a cluster as a failure. -/
def clusterFailures : List String := [ClusterStatus.failed.word]

/-- The words that end the watch of an update as a failure. -/
def updateFailures : List String := [UpdateStatus.failed.word, UpdateStatus.cancelled.word]

/-- A word of one of the vocabularies, which knows where it comes from. -/
inductive StatusWord where
  | cluster (s : ClusterStatus)
  | update (s : UpdateStatus)
  deriving DecidableEq, Repr, Inhabited

namespace StatusWord

def text : StatusWord → String
  | cluster s => s.word
  | update s => s.word

/-- The word with its vocabulary and its name. -/
def titled (quote : String → String) : StatusWord → String
  | cluster s => "<ClusterStatus." ++ s.name ++ ": " ++ quote s.word ++ ">"
  | update s => "<UpdateStatus." ++ s.name ++ ": " ++ quote s.word ++ ">"

end StatusWord

end Vigil
