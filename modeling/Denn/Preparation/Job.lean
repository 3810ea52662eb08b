import Denn.Moderation.Worker

/-!
# Metadata preparation rows

The durable intents to hydrate content items: what a claim, a finish, a retry, the expiry of a
lease and the admission of new items write to the job table.
-/

namespace Denn.Preparation

open Core

abbrev JobId := ℕ

/-- A `content_metadata_preparation_job` row; its primary key is the key it is stored under. -/
structure PreparationJob where
  contentItem : ItemId
  status : JobStatus := .queued
  attempts : ℕ := 0
  availableAt : Time
  leaseToken : Option Token := none
  leaseUntil : Option Time := none
  lastErrorCode : String := ""
  completedAt : Option Time := none
  deriving DecidableEq, Repr

/-- The job table. `nextId` is the primary key the next row will get. -/
structure PreparationTable where
  rows : Table JobId PreparationJob
  nextId : ℕ

def readyStatuses : List JobStatus := [.queued, .retry]

/-- `ACTIVE_STATUSES`. -/
def activeStatuses : List JobStatus := [.queued, .leased, .retry]

def maxPendingMetadataPreparationJobs : ℕ := 1000

/-- The retry options of a worker. -/
structure RetryOptions where
  maxAttempts : ℕ := 5
  baseBackoffSeconds : ℕ := 5
  maxBackoffSeconds : ℕ := 900
  deriving Repr

def maxBatchSize : ℕ := 100

def minLeaseSeconds : ℕ := 300

/-! ### Leases -/

/-- The lease of the row is over. -/
def PreparationJob.isExpired (now : Time) (job : PreparationJob) : Bool :=
  job.status = .leased && job.leaseUntil.any (· ≤ now)

/-- The row is leased under the token, and the lease is not over. -/
def PreparationJob.isHeld (now : Time) (token : Token) (job : PreparationJob) : Bool :=
  job.status = .leased && job.leaseToken = some token && job.leaseUntil.any (now < ·)

def PreparationJob.expireFailed (now : Time) (job : PreparationJob) : PreparationJob :=
  { job with
    status := .failed, leaseToken := none, leaseUntil := none,
    lastErrorCode := "lease_expired_attempts_exhausted", completedAt := some now }

def PreparationJob.expireRetry (now : Time) (job : PreparationJob) : PreparationJob :=
  { job with
    status := .retry, availableAt := now, leaseToken := none, leaseUntil := none,
    lastErrorCode := "lease_expired_retry", completedAt := none }

/-- The two updates with which a claim begins. -/
def expireLeases (now : Time) (maxAttempts : ℕ) (rows : Table JobId PreparationJob) :
    Table JobId PreparationJob :=
  let failed := rows.updateWhere
    (fun _ job => job.isExpired now && maxAttempts ≤ job.attempts) fun _ job => job.expireFailed now
  failed.updateWhere
    (fun _ job => job.isExpired now && job.attempts < maxAttempts) fun _ job => job.expireRetry now

/-- The row that a claim leaves. -/
def PreparationJob.lease (token : Token) (leaseUntil : Time) (job : PreparationJob) :
    PreparationJob :=
  { job with
    status := .leased, leaseToken := some token, leaseUntil := some leaseUntil,
    attempts := job.attempts + 1 }

/-- The jobs that can be claimed, in the order in which they are, without those that another
    transaction has locked. -/
def readyJobs (now : Time) (locked : List JobId) (rows : Table JobId PreparationJob) :
    List JobId :=
  let ready := rows.rows.filter fun row =>
    row.2.status ∈ readyStatuses && row.2.availableAt ≤ now && row.1 ∉ locked
  (ready.insertionSort fun a b =>
    toLex (a.2.availableAt, a.1) ≤ toLex (b.2.availableAt, b.1)).map Prod.fst

/-! ### Writes of a worker -/

/-- An update of one row on the condition that it is held. -/
def updateHeld (now : Time) (job : JobId) (token : Token)
    (f : PreparationJob → PreparationJob) (rows : Table JobId PreparationJob) :
    Table JobId PreparationJob :=
  rows.updateWhere (fun id row => id = job && row.isHeld now token) fun _ row => f row

/-- The condition of `updateHeld`. -/
def isHeld (now : Time) (job : JobId) (token : Token) (rows : Table JobId PreparationJob) :
    Bool :=
  (rows.get? job).any (·.isHeld now token)

/-- `_finish`; every status it is called with is terminal. -/
def PreparationJob.finish (now : Time) (status : FinalStatus) (job : PreparationJob) :
    PreparationJob :=
  { job with
    status := status.toJobStatus, leaseToken := none, leaseUntil := none, lastErrorCode := "",
    completedAt := some now }

def retryDelay (options : RetryOptions) (attempts : ℕ) : ℕ :=
  min options.maxBackoffSeconds (options.baseBackoffSeconds * 2 ^ min 30 (attempts - 1))

/-- `_retry_or_fail`, with the attempts that the worker has loaded. -/
def PreparationJob.retryOrFail (now : Time) (options : RetryOptions) (attempts : ℕ)
    (job : PreparationJob) : PreparationJob :=
  { job with
    status := if options.maxAttempts ≤ attempts then .failed else .retry
    availableAt := now + max 1 (retryDelay options attempts)
    leaseToken := none, leaseUntil := none, lastErrorCode := "canonical_metadata_unavailable"
    completedAt := if options.maxAttempts ≤ attempts then some now else none }

/-! ### Admission -/

/-- The item has a job. -/
def hasJob (item : ItemId) (rows : Table JobId PreparationJob) : Bool :=
  rows.any fun _ job => job.contentItem = item

/-- The jobs that count against the cap. -/
def activeCount (rows : Table JobId PreparationJob) : ℕ :=
  rows.count fun _ job => job.status ∈ activeStatuses

/-- The items that no job exists for, each once. -/
def candidates (contentItemIds : List ItemId) (rows : Table JobId PreparationJob) :
    List ItemId :=
  contentItemIds.dedup.filter fun item => !hasJob item rows

/-- The candidates in the order of admission: those behind the cursor come last. -/
def rotate (lastId : Option ItemId) (items : List ItemId) : List ItemId :=
  let behind := fun item : ItemId => lastId.any fun last => last ≠ 0 && item ≤ last
  items.insertionSort fun a b => toLex (behind a, a) ≤ toLex (behind b, b)

/-- One row of `bulk_create(ignore_conflicts=True)`. -/
def insertJob (now : Time) (table : PreparationTable) (item : ItemId) : PreparationTable :=
  if hasJob item table.rows then table
  else
    { rows := table.rows.set table.nextId { contentItem := item, availableAt := now }
      nextId := table.nextId + 1 }

end Denn.Preparation
