import BatchRun.Cluster.Shape

/-!
# The shapes of pods and jobs

* `Shape.metadata`: what every object carries;
* `Shape.pod`, `Shape.job`.
-/

namespace BatchRun

namespace Shape

/-- A record whose fields may all be missing. -/
def loose (title : String) (fields : List (String × Shape)) : Shape :=
  .record title (.optional fields .nil)

/-- An owner of an object. -/
def ownerReference : Shape :=
  .record "OwnerReference" <|
    .required "apiVersion" .text <|
    .optional [("blockOwnerDeletion", .flag), ("controller", .flag)] <|
    .required "kind" .text <| .required "name" .text <| .required "uid" .text .nil

/-- The fields that one writer of an object owns. -/
def managedFields : Shape :=
  loose "ManagedFieldsEntry"
    [("apiVersion", .text), ("fieldsType", .text), ("fieldsV1", .any), ("manager", .text),
     ("operation", .text), ("subresource", .text), ("time", .instant)]

/-- What every object carries. -/
def metadata : Shape :=
  loose "ObjectMeta"
    [("annotations", .texts), ("creationTimestamp", .instant),
     ("deletionGracePeriodSeconds", .int64), ("deletionTimestamp", .instant),
     ("finalizers", .list .text), ("generateName", .text), ("generation", .int64),
     ("labels", .texts), ("managedFields", .list managedFields), ("name", .text),
     ("namespace", .text), ("ownerReferences", .list ownerReference),
     ("resourceVersion", .text), ("selfLink", .text), ("uid", .text)]

/-- One entry of the environment of a container. -/
def envVar : Shape :=
  .record "EnvVar" <|
    .required "name" .text <| .optional [("value", .text), ("valueFrom", .any)] .nil

/-- A container of a pod. -/
def container : Shape :=
  .record "Container" <|
    .optional
      [("args", .list .text), ("command", .list .text), ("env", .list envVar),
       ("image", .text), ("imagePullPolicy", .text)] <|
    .required "name" .text <|
    .optional
      [("resources", .any), ("stdin", .flag), ("terminationMessagePath", .text),
       ("terminationMessagePolicy", .text), ("tty", .flag), ("volumeMounts", .list .any),
       ("workingDir", .text)] .nil

/-- What a pod is to run. -/
def podSpec : Shape :=
  .record "PodSpec" <|
    .optional
      [("activeDeadlineSeconds", .int64), ("automountServiceAccountToken", .flag)] <|
    .required "containers" (.list container) <|
    .optional
      [("dnsPolicy", .text), ("hostNetwork", .flag), ("hostname", .text),
       ("initContainers", .list container), ("nodeName", .text), ("nodeSelector", .texts),
       ("priority", .int32), ("priorityClassName", .text), ("restartPolicy", .text),
       ("schedulerName", .text), ("serviceAccount", .text), ("serviceAccountName", .text),
       ("subdomain", .text), ("terminationGracePeriodSeconds", .int64),
       ("tolerations", .list .any), ("volumes", .list .any)] .nil

/-- The state of a container. -/
def containerState : Shape :=
  loose "ContainerState"
    [("running", loose "ContainerStateRunning" [("startedAt", .instant)]),
     ("terminated", .record "ContainerStateTerminated" <|
        .optional [("containerID", .text)] <|
        .required "exitCode" .int32 <|
        .optional
          [("finishedAt", .instant), ("message", .text), ("reason", .text),
           ("signal", .int32), ("startedAt", .instant)] .nil),
     ("waiting", loose "ContainerStateWaiting" [("message", .text), ("reason", .text)])]

/-- What is known of a container. -/
def containerStatus : Shape :=
  .record "ContainerStatus" <|
    .optional [("containerID", .text)] <|
    .required "image" .text <| .required "imageID" .text <|
    .optional [("lastState", containerState)] <|
    .required "name" .text <| .required "ready" .flag <| .required "restartCount" .int32 <|
    .optional [("started", .flag), ("state", containerState)] .nil

/-- A condition of an object, which holds or does not hold. -/
def condition (title : String) : Shape :=
  .record title <|
    .optional
      [("lastProbeTime", .instant), ("lastTransitionTime", .instant), ("message", .text),
       ("reason", .text)] <|
    .required "status" .text <| .required "type" .text .nil

/-- What is known of a pod. -/
def podStatus : Shape :=
  loose "PodStatus"
    [("conditions", .list (condition "PodCondition")),
     ("containerStatuses", .list containerStatus),
     ("ephemeralContainerStatuses", .list containerStatus), ("hostIP", .text),
     ("initContainerStatuses", .list containerStatus), ("message", .text),
     ("nominatedNodeName", .text), ("phase", .text), ("podIP", .text), ("qosClass", .text),
     ("reason", .text), ("startTime", .instant)]

/-- A pod. -/
def pod : Shape :=
  .record "Pod" <|
    .required "apiVersion" (.constant "v1" "Pod") <|
    .required "kind" (.constant "Pod" "Pod") <|
    .required "metadata" metadata <|
    .optional [("spec", podSpec), ("status", podStatus)] .nil

/-- What a job is to run. -/
def jobSpec : Shape :=
  .record "JobSpec" <|
    .optional
      [("activeDeadlineSeconds", .int64), ("backoffLimit", .int32),
       ("backoffLimitPerIndex", .int32), ("completionMode", .text), ("completions", .int32),
       ("manualSelector", .flag), ("maxFailedIndexes", .int32), ("parallelism", .int32),
       ("podReplacementPolicy", .text), ("selector", .any), ("suspend", .flag)] <|
    .required "template"
      (loose "PodTemplateSpec" [("metadata", metadata), ("spec", podSpec)]) <|
    .optional [("ttlSecondsAfterFinished", .int32)] .nil

/-- What is known of a job. -/
def jobStatus : Shape :=
  loose "JobStatus"
    [("active", .int32), ("completedIndexes", .text), ("completionTime", .instant),
     ("conditions", .list (condition "JobCondition")), ("failed", .int32),
     ("failedIndexes", .text), ("ready", .int32), ("startTime", .instant),
     ("succeeded", .int32), ("terminating", .int32),
     ("uncountedTerminatedPods", loose "UncountedTerminatedPods"
       [("failed", .list .text), ("succeeded", .list .text)])]

/-- A job. -/
def job : Shape :=
  .record "Job" <|
    .required "apiVersion" (.constant "batch/v1" "Job") <|
    .required "kind" (.constant "Job" "Job") <|
    .required "metadata" metadata <|
    .optional [("spec", jobSpec), ("status", jobStatus)] .nil

end Shape

end BatchRun
