import Proofstorm.Core.Text
import Proofstorm.Sequenced
import Proofstorm.Store.RunCalls

/-!
A candidate build on the API server, with its Job, the pods of the Job and the
durable record of the candidate. A pass of the controller (`reconcileCandidateBuild`)
works on a copy that the server has served some time ago; a status is applied
whatever the server has by then. `observe` copies a served status to the record,
where `validate_candidate_update` allows it.
-/
namespace Proofstorm.Building
open Proofstorm.Core (CandidateBuild CandidateBuildPhase CandidateProvenance Json)
open Proofstorm.Interleaving
open Proofstorm.Store (StoreError isHex validateCandidateUpdate)

/-! ### Resources -/

/-- `ProofstormCandidateBuildSpec`, without the Dockerfile, which only the Job is rendered from. -/
structure Spec where
  provenance : Option CandidateProvenance
  workspaceId : String
  candidateId : String
  principalId : String
  implementation : String
  baseVersion : String
  pullRequestUrl : String
  repository : String
  commitSha : String
  version : String
  requestDigest : String
  acceptedAtUnix : Int
  imageRepository : String

/-- `ProofstormCandidateBuildStatus`. -/
structure Status where
  diagnostics : Option Json
  phase : CandidateBuildPhase
  observedGeneration : Option Int
  jobName : Option String
  startedAtUnix : Option Int
  completedAtUnix : Option Int
  image : Option String
  errorCode : Option String
  message : Option String
  deriving DecidableEq

def Status.default : Status := ⟨none,.pending,none,none,none,none,none,none,none⟩

/-- A `ProofstormCandidateBuild` in one of its versions. -/
structure Build where
  name : String
  spec : Spec
  /-- Whether `CANDIDATE_CANCEL_ANNOTATION` is there. -/
  cancelRequested : Bool
  generation : Option Int
  status : Option Status

structure JobCondition where
  kind : String
  status : String
  reason : Option String
  deriving DecidableEq

structure JobStatus where
  succeeded : Option Int
  failed : Option Int
  conditions : Option (List JobCondition)
  deriving DecidableEq

structure Job where
  status : Option JobStatus
  ttlSecondsAfterFinished : Option Nat
  deriving DecidableEq

structure ContainerStatus where
  name : String
  /-- The message of the terminated state. -/
  message : Option String

structure Pod where
  name : String
  containers : List ContainerStatus

structure World where
  now : Int
  build : Build
  /-- The versions of the build that the server has served, newest first. -/
  served : List Build
  job : Option Job
  /-- The pods of the Job. -/
  pods : List Pod
  /-- What the server answers to a request for the logs of a container of a pod. -/
  logs : String → String → Except String String
  record : CandidateBuild
  /-- The states of the record, newest first. -/
  records : List CandidateBuild
  /-- Not of the cluster: every pod that the Job has had. -/
  past : List Pod
  /-- Not of the cluster: the status of the build at each creation of its Job. -/
  created : List (Option Status)
  /-- Not of the cluster: how often a pass has not found the Job although it had been created. -/
  missed : Nat

inductive Failure
  | notFound | unavailable
  | render (message : String)
  | identityConflict
  | store (error : StoreError)

/-- What the controller takes from elsewhere: the parser of JSON, the rendering of
    the Job, of which only the refusal counts here, and the cause that is named in
    the message of a failure. -/
class Functions where
  /-- `serde_json::from_str`. -/
  parse : String → Option Json
  /-- The refusal of `render_candidate_build_job`. -/
  unrenderable : Spec → Option String
  actionFailure : JobStatus → List Pod → Json

inductive Statement
  | applyStatus (status : Status)
  | getJob
  | applyJob
  | deleteJob
  /-- The patch of `ttlSecondsAfterFinished`. -/
  | patchJob

@[reducible] def Statement.Answer : Statement → Type
  | .getJob => Option Job
  | _ => Unit

def execute (statement : Statement) (world : World) : Except Failure (statement.Answer × World) :=
  match statement with
  | .applyStatus status =>
    let build := { world.build with status := some status }
    .ok ((),{ world with build, served := build :: world.served })
  | .getJob =>
    let missed := if world.job.isNone ∧ world.created ≠ [] then world.missed + 1 else world.missed
    .ok (world.job,{ world with missed })
  | .applyJob =>
    match world.job with
    | some _ => .ok ((),world)
    | none => .ok ((),{ world with job := some ⟨none,none⟩, created := world.build.status :: world.created })
  | .deleteJob => do
    ensure (world.job.isSome = true) .notFound
    pure ((),{ world with job := none })
  | .patchJob => do
    let job ← require world.job .notFound
    pure ((),{ world with job := some { job with ttlSecondsAfterFinished := some 600 } })

abbrev Program := Fallible World Statement Failure Statement.Answer

/-- `now_unix`. -/
def clock : Program Int := query fun world => .ok world.now

/-! ### Diagnostics -/

/-- `text.lines().count()`. -/
def lineCount (text : String) : Nat :=
  let parts := text.toList.splitOn '\n'
  if parts.getLast? = some [] then parts.length - 1 else parts.length

/-- The longest end of a text within so many bytes. -/
def endWithin (limit : Nat) : List Char → List Char
  | [] => []
  | c :: rest => if ((c :: rest).map Char.utf8Size).sum ≤ limit then c :: rest else endWithin limit rest

/-- `CandidateLog` of what was answered to a request for a log. -/
def candidateLog : Except String String → Json
  | .ok text => .object [("text",.str (.ofList (endWithin 32768 text.toList))),
      ("truncated",.bool (32768 < text.utf8ByteSize ∨ 128 ≤ lineCount text))]
  | .error message => .object [("text",.str ""),("truncated",.bool false),
      ("unavailable",.str (.ofList (message.toList.take 1000)))]

def archivedLog (pods : List Pod) (container : String) : Program Json :=
  match pods.head? with
  | some pod => query fun world => .ok (candidateLog (world.logs pod.name container))
  | none => pure (candidateLog (.error "Build Pod is unavailable; no log was captured"))

/-- `archive_candidate_logs`. -/
def archiveCandidateLogs : Program Json := do
  let pods ← query fun world => .ok world.pods
  let source ← archivedLog pods "source"
  let buildkit ← archivedLog pods "buildkit"
  let now ← clock
  pure (.object [("captured_at_unix",.num (toString now)),("logs",.object [("buildkit",buildkit),("source",source)])])

/-- `bounded_log_tail`. -/
def boundedLogTail (text : String) (maximum : Nat) : String := .ofList (text.toList.reverse.take maximum).reverse

section
variable [Functions]

/-- `candidate_failure_message`. -/
def candidateFailureMessage (status : JobStatus) (pods : List Pod) : Program String := do
  let tail ← match pods.head? with
    | some pod => query fun world => .ok (world.logs pod.name "buildkit").toOption
    | none => pure none
  pure (.ofList (Json.object [("failure",Functions.actionFailure status pods),
    ("log_tail",(tail.map fun text => Json.str (boundedLogTail text 3000)).getD .null),
    ("recovery",.str "this exact candidate request is terminal; inspect the diagnostic and do not retry under a new ID unless the source or build environment changes")]).write)

/-! ### Digests -/

/-- `termination_message`. -/
def terminationMessage (pod : Pod) (target : String) : Option String :=
  (pod.containers.find? fun status => status.name = target).bind ContainerStatus.message

/-- The digest in the receipt of a build. -/
def receiptDigest (message : String) : Option String :=
  ((Functions.parse message).bind fun receipt => receipt.get "digest").bind Json.asStr

/-- The digest that the first pod with a receipt has reported. -/
def reportedDigest (pods : List Pod) : Option String :=
  (pods.findSome? fun pod => terminationMessage pod "buildkit").bind receiptDigest

/-- `valid_sha256_digest`. -/
def validSha256Digest (value : String) : Bool :=
  "sha256:".toList.isPrefixOf value.toList && isHex 64 (.ofList (value.toList.drop 7))

/-! ### The pass of the controller -/

/-- `patch_candidate_status`. -/
def patchCandidateStatus (build : Build) (status : Status) : Program Unit :=
  if build.status = some status then pure () else submit (Statement.applyStatus status)

def jobName (build : Build) : String := s!"{build.name}-build"

def startedAt (build : Build) : Option Int := build.status.bind Status.startedAtUnix

def Build.terminal (build : Build) : Bool := build.status.any fun status => status.phase.terminal

/-- The part of the pass for a build whose status is terminal. -/
def keepTerminal (build : Build) : Program Unit :=
  if (build.status.bind Status.diagnostics).isSome then do
    let found : Option Job ← submit Statement.getJob
    match found with
    | some _ => submit Statement.patchJob
    | none => pure ()
  else pure ()

/-- The diagnostics of the copy, or those that are archived now. -/
def diagnosticsOf (build : Build) : Program Json :=
  match build.status.bind Status.diagnostics with
  | some diagnostics => pure diagnostics
  | none => archiveCandidateLogs

/-- The part of the pass for a build that is cancelled. -/
def cancelBuild (build : Build) : Program Unit := do
  let diagnostics ← diagnosticsOf build
  patchCandidateStatus build { build.status.getD .default with diagnostics := some diagnostics }
  match ← attempt (submit Statement.deleteJob) with
  | .ok _ | .error .notFound =>
    let now ← clock
    patchCandidateStatus build { Status.default with
      phase := .cancelled
      diagnostics := some diagnostics
      observedGeneration := build.generation
      jobName := some (jobName build)
      startedAtUnix := startedAt build
      completedAtUnix := some now }
  | .error error => throw error

/-- The part of the pass for a build without a Job. -/
def beginBuild (build : Build) : Program Unit := do
  if (startedAt build).isSome then
    let diagnostics ← archiveCandidateLogs
    let now ← clock
    patchCandidateStatus build { Status.default with
      phase := .failed
      diagnostics := some diagnostics
      observedGeneration := build.generation
      jobName := some (jobName build)
      startedAtUnix := startedAt build
      completedAtUnix := some now
      errorCode := some "candidate_job_lost"
      message := some "controller-owned build Job disappeared after execution began" }
  else
    match Functions.unrenderable build.spec with
    | some message => throw (.render message)
    | none =>
      submit Statement.applyJob
      let now ← clock
      patchCandidateStatus build { Status.default with
        phase := .building
        observedGeneration := build.generation
        jobName := some (jobName build)
        startedAtUnix := some now }

/-- The end of a build whose Job has ended. -/
def outcome (build : Build) (status : JobStatus) (failed : Bool) (startedAtUnix : Option Int) (pods : List Pod) :
    Program Status := do
  if failed then
    let failure ← candidateFailureMessage status pods
    let now ← clock
    pure { Status.default with
      phase := .failed
      observedGeneration := build.generation
      jobName := some (jobName build)
      startedAtUnix
      completedAtUnix := some now
      errorCode := some "candidate_build_failed"
      message := some failure }
  else
    let digest := reportedDigest pods
    let now ← clock
    if digest.any validSha256Digest then
      pure { Status.default with
        phase := .succeeded
        observedGeneration := build.generation
        jobName := some (jobName build)
        startedAtUnix
        completedAtUnix := some now
        image := some s!"{build.spec.imageRepository}@{digest.getD default}" }
    else
      pure { Status.default with
        phase := .failed
        observedGeneration := build.generation
        jobName := some (jobName build)
        startedAtUnix
        completedAtUnix := some now
        errorCode := some "candidate_digest_missing"
        message := some "successful build Job did not report an image digest" }

/-- The start of the build that the copy records, or now. -/
def startedOrNow (build : Build) : Program (Option Int) :=
  match startedAt build with
  | some started => pure (some started)
  | none => some <$> clock

/-- The part of the pass for a build whose Job is there. -/
def observeJob (build : Build) (observed : Job) : Program Unit := do
  let status := observed.status.getD ⟨none,none,none⟩
  let succeeded : Bool := 0 < status.succeeded.getD 0
  let failed : Bool := 0 < status.failed.getD 0 ∨
    (status.conditions.any fun conditions => conditions.any fun condition =>
      condition.kind = "Failed" ∧ condition.status = "True") = true
  let startedAtUnix ← startedOrNow build
  if succeeded = false ∧ failed = false then
    patchCandidateStatus build { Status.default with
      phase := .building
      observedGeneration := build.generation
      jobName := some (jobName build)
      startedAtUnix }
  else
    let pods ← query fun world => .ok world.pods
    let terminal ← outcome build status failed startedAtUnix pods
    let diagnostics ← archiveCandidateLogs
    patchCandidateStatus build { terminal with diagnostics := some diagnostics }
    -- Cleanup becomes eligible only after the diagnostics are durable.
    submit Statement.patchJob

/-- `reconcile_candidate_build`. -/
def reconcileCandidateBuild (build : Build) : Program Unit :=
  if build.terminal then keepTerminal build
  else if build.cancelRequested then cancelBuild build
  else do
    let found : Option Job ← submit Statement.getJob
    match found with
    | none => beginBuild build
    | some observed => observeJob build observed

def code (build : Build) : Call World Statement Failure Statement.Answer (Except Failure Unit) :=
  (reconcileCandidateBuild build).run
end

/-! ### The durable record -/

def Spec.identifies (spec : Spec) (candidate : CandidateBuild) : Prop :=
  spec.workspaceId = candidate.workspaceId ∧ spec.candidateId = candidate.id ∧
    spec.principalId = candidate.principalId ∧ spec.implementation = candidate.implementation ∧
    spec.baseVersion = candidate.baseVersion ∧ spec.pullRequestUrl = candidate.pullRequestUrl ∧
    spec.provenance = candidate.provenance ∧ spec.requestDigest = candidate.requestDigest ∧
    some spec.repository = candidate.repository ∧ some spec.commitSha = candidate.commitSha ∧
    some spec.version = candidate.version ∧ spec.acceptedAtUnix = candidate.acceptedAtUnix

instance (spec : Spec) (candidate : CandidateBuild) : Decidable (spec.identifies candidate) :=
  inferInstanceAs (Decidable (_ ∧ _))

/-- `observe` up to its write: the update of the candidate, if there is one. -/
def observe (candidate : CandidateBuild) (resource : Option Build) : Except Failure (Option CandidateBuild) := do
  if candidate.phase.terminal then pure none
  else
    match resource with
    | none => pure none
    | some resource =>
      ensure (resource.spec.identifies candidate) .identityConflict
      match resource.status with
      | none => pure none
      | some status =>
        let updated := { candidate with
          phase := status.phase
          startedAtUnix := status.startedAtUnix
          completedAtUnix := status.completedAtUnix
          image := status.image
          errorCode := status.errorCode
          errorMessage := status.message
          diagnostics := status.diagnostics }
        if updated = candidate then pure none else pure (some updated)

/-- What happens between the steps of the passes. -/
inductive Meanwhile : World → World → Prop
  | time (world : World) (now : Int) : Meanwhile world { world with now }
  /-- The cancel annotation is set. -/
  | cancel (world : World) (generation : Option Int) :
    Meanwhile world { world with
      build := { world.build with cancelRequested := true, generation }
      served := { world.build with cancelRequested := true, generation } :: world.served }
  /-- The Job makes progress, succeeds or fails. -/
  | progress (world : World) (job : Job) (status : Option JobStatus) (there : world.job = some job) :
    Meanwhile world { world with job := some { job with status } }
  | vanish (world : World) : Meanwhile world { world with job := none }
  /-- The pods and their logs change. -/
  | pods (world : World) (pods : List Pod) (logs : String → String → Except String String) :
    Meanwhile world { world with pods, logs, past := pods ++ world.past }
  /-- `observe`: the record is updated by what was once read of it and of the build. -/
  | observe (world : World) (candidate updated : CandidateBuild) (resource : Option Build)
      (known : candidate ∈ world.records) (served : ∀ build, resource = some build → build ∈ world.served)
      (observed : Building.observe candidate resource = .ok (some updated))
      (valid : validateCandidateUpdate world.record updated = .ok ()) :
    Meanwhile world { world with record := updated, records := updated :: world.records }

/-- A build that was just accepted. -/
structure Fresh (world : World) : Prop where
  status : world.build.status = none
  served : world.served = [world.build]
  job : world.job = none
  open_ : world.record.phase.terminal = false
  records : world.records = [world.record]
  past : world.pods = []
  created : world.created = []
end Proofstorm.Building
