import Vigil.Eks.Strategy
import Vigil.Watch.Subject

/-!
# Watching clusters and updates

A cluster or an update has failed for good when it reports one of a few statuses, so these end a
watch of it.
-/

namespace Vigil.Eks

open Watch (Subject)

/-- A cluster by its name. -/
def cluster : Subject := ⟨clusterStrategy, clusterFailures⟩

/-- An update of a cluster by its id. -/
def update (clusterName : String) : Subject := ⟨updateStrategy clusterName, updateFailures⟩

end Vigil.Eks
