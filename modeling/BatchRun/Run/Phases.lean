import BatchRun.Cluster.Object

/-!
# Phases in a row

Of the phases that are observed one after another only the changes matter.

* `PhaseChange`, `PhaseChange.observe`;
* **`PhaseChange.chain`**: the changes in a row of phases.
-/

namespace BatchRun

/-- A change between two phases observed in a row; the first observation has none before it. -/
structure PhaseChange where
  before : Option PodPhase
  after : PodPhase
  deriving DecidableEq, Inhabited

namespace PhaseChange

/-- Observes a phase after the last one: the change that it is, if it is one, and the phase that is
the last one then. -/
def observe (last : Option PodPhase) (phase : PodPhase) : Option PhaseChange × Option PodPhase :=
  if last = some phase then (none, last) else (some ⟨last, phase⟩, some phase)

/-- The change that a phase is after the last one observed. -/
def next? (last : Option PodPhase) (phase : PodPhase) : Option PhaseChange :=
  (observe last phase).1

/-- Observes phases one after another: the changes among them, and the last phase. -/
def observeAll (last : Option PodPhase) : List PodPhase → List PhaseChange × Option PodPhase
  | [] => ([], last)
  | phase :: rest =>
    let observed := observe last phase
    let others := observeAll observed.2 rest
    (observed.1.toList ++ others.1, others.2)

/-- The changes in a row of phases. -/
def chain (last : Option PodPhase) (phases : List PodPhase) : List PhaseChange :=
  (observeAll last phases).1

end PhaseChange

end BatchRun
