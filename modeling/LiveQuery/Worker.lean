import LiveQuery.Error
import LiveQuery.ListenTarget
import LiveQuery.Settings
import LiveQuery.Snapshot
import LiveQuery.Text.Digits

namespace LiveQuery

/-- What follows from an input for the connection. -/
inductive Verdict where
  | stay
  /-- The stream is given up for a new one. -/
  | reconnect
  | close (error : WatchError)
  /-- The count of mismatches no longer fits its word. -/
  | overflow
  deriving DecidableEq

/-- An existence filter that disagrees, with the size it was compared with and the mismatches so far. -/
structure Mismatch where
  count : Int32
  projectedSize : Nat
  mismatches : UInt32
  deriving DecidableEq

/-- The state of the only owner of a watch's documents, and its connection. A stream is known by its
number; the timer is set while a connection is scheduled. -/
structure Worker where
  target : ListenTarget
  settings : ListenSettings
  backoff : Backoff
  stream : Option Nat
  timer : Option Delay
  documents : DocumentSet
  pending : PendingChanges
  resumeToken : Option Bytes
  /-- Whether the backend said on this stream that the result set is caught up. -/
  current : Bool
  hasPushed : Bool
  /-- Disagreeing existence filters since the last one that agreed. -/
  filterMismatches : UInt32

/-- The worker after an input, what it emits, and what follows. -/
structure Reaction where
  worker : Worker
  snapshot : Option Snapshot
  mismatch : Option Mismatch
  verdict : Verdict

namespace Worker

def initial (target : ListenTarget) (order : DocumentOrder) (settings : ListenSettings)
    (policy : BackoffPolicy) : Worker where
  target := target
  settings := settings
  backoff := .initial policy
  stream := none
  timer := none
  documents := .empty order
  pending := .empty
  resumeToken := none
  current := false
  hasPushed := false
  filterMismatches := 0

def stay (w : Worker) : Reaction := ⟨w, none, none, .stay⟩

def reconnect (w : Worker) : Reaction := ⟨{ w with stream := none }, none, none, .reconnect⟩

def close (w : Worker) (error : WatchError) : Reaction :=
  ⟨{ w with stream := none, timer := none }, none, none, .close error⟩

/-- Sets the timer to the delay of the current step, then goes to the next step. -/
def schedule (draw : Binary64 → Binary64 → Binary64) (w : Worker) : Worker :=
  { w with timer := some (w.backoff.randomizedDelay draw), backoff := w.backoff.advance }

/-- The request that opens a stream, from where the last snapshot left off. -/
def request (w : Worker) : ListenRequest :=
  .addTarget w.settings.database (w.target.toTarget ListenTarget.watchId w.resumeToken)

/-- The most requests that may wait to be sent on a stream. -/
def longestQueue : Nat := 0x1fffffffffffffff

/-- Whether a stream's requests can have a queue of the size that the settings ask for. -/
def hasQueue (w : Worker) : Bool := w.settings.requestBufferSize.toNat ≤ longestQueue

/-- The timer has run out and a connection is tried. -/
def beginConnect (w : Worker) : Worker := { w with timer := none, current := false }

def onStreamError (w : Worker) (e : StreamError) : Reaction :=
  if e.isPermanent then w.close (.ofStreamError e)
  else
    let backoff := if e.isResourceExhausted then w.backoff.advance else w.backoff
    reconnect { w with backoff, pending := .empty }

/-- A stream that ends is one that failed for an unknown reason. -/
def onCompletion (w : Worker) : Reaction := w.onStreamError (.status .unknown "listen stream completed")

/-- Marks every held document as deleted and forgets the token. The backend sends again what remains. -/
def resetDocuments (w : Worker) : Worker :=
  { w with
    pending := w.documents.paths.foldl PendingChanges.tombstone .empty
    resumeToken := none
    current := false }

/-- Applies the pending changes. There is a snapshot if it is the first or anything changed. -/
def materialize (w : Worker) (readTime : Timestamp) (token : Bytes) : Worker × Option Snapshot :=
  let (documents, diff) := w.documents.apply (w.pending.against w.documents (some readTime))
  let emits := !w.hasPushed || !diff.isEmpty
  ({ w with
      documents
      pending := .empty
      hasPushed := w.hasPushed || emits
      resumeToken := if token.isEmpty then none else some token },
    if emits then some ⟨readTime, documents, diff⟩ else none)

/-- A target change with a token that concerns the watch proves progress and ends the backoff. -/
def confirmProgress (w : Worker) (change : TargetChange) : Worker :=
  if !change.resumeToken.isEmpty && change.affects ListenTarget.watchId then
    { w with backoff := w.backoff.reset }
  else w

/-- Whether a change of kind `add` acknowledges the watch's target and nothing else. -/
def isAcknowledged (change : TargetChange) : Bool :=
  !change.targetIds.isEmpty && change.targetIds.all (· == ListenTarget.watchId)

/-- The end of a watch whose target the backend removed. -/
def rejection (cause : Option Status) : WatchError :=
  match cause with
  | some status =>
    .serverRejection (.ofNumber status.code.toInt) ("Backend ended Listen stream: " ++ status.message)
  | none => .serverRejection .cancelled "Backend ended Listen stream: "

def onTargetChange (w : Worker) (change : TargetChange) : Reaction :=
  match TargetChangeKind.ofNumber? change.kind with
  | none => w.close (.invalidArgument
      ("Encountered invalid target change type: " ++ toString change.kind.toInt))
  | some .noChange =>
    match change.readTime with
    | some readTime =>
      if change.targetIds.isEmpty && w.current then
        let (w, snapshot) := w.materialize readTime change.resumeToken
        ⟨w.confirmProgress change, snapshot, none, .stay⟩
      else (w.confirmProgress change).stay
    | none => (w.confirmProgress change).stay
  | some .add =>
    if isAcknowledged change then (w.confirmProgress change).stay
    else w.close (.invalidArgument
      ("Target ID must be 0x" ++ Text.hex 2 ListenTarget.watchId.toInt.toNat))
  | some .remove => w.close (rejection change.cause)
  | some .current => (confirmProgress { w with current := true } change).stay
  | some .reset => (w.resetDocuments.confirmProgress change).stay

def onDocumentChange (w : Worker) (change : DocumentChange) : Reaction :=
  let changed := change.targetIds.contains ListenTarget.watchId
  let removed := change.removedTargetIds.contains ListenTarget.watchId
  if changed || removed then
    match change.document with
    | none => w.close (.invalidArgument "Document change without a document")
    | some d =>
      if changed then stay { w with pending := w.pending.upsert d }
      else stay { w with pending := w.pending.tombstone (Path.ofString d.name) }
  else w.stay

/-- A filter agrees when it counts what the set would hold with all pending changes. -/
def onFilter (w : Worker) (filter : ExistenceFilter) : Reaction :=
  let size := w.pending.projectedSize w.documents
  if filter.count.toInt = size then stay { w with filterMismatches := 0 }
  else if w.filterMismatches.toNat + 1 = UInt32.size then ⟨w, none, none, .overflow⟩
  else
    let w := { w with filterMismatches := w.filterMismatches + 1 }
    let mismatch : Mismatch := ⟨filter.count, size, w.filterMismatches⟩
    let limit := w.settings.maxFilterMismatches
    let reaction :=
      if 0 < limit ∧ limit ≤ w.filterMismatches then w.close (.filterMismatch w.filterMismatches)
      else w.resetDocuments.reconnect
    { reaction with mismatch := some mismatch }

def onResponse (w : Worker) : ListenResponse → Reaction
  | .unset => w.close (.invalidArgument "Encountered invalid listen response type")
  | .targetChange change => w.onTargetChange change
  | .documentChange change => w.onDocumentChange change
  | .documentDelete delete => stay { w with pending := w.pending.tombstone (Path.ofString delete.document) }
  | .documentRemove remove => stay { w with pending := w.pending.tombstone (Path.ofString remove.document) }
  | .filter filter => w.onFilter filter

end Worker

end LiveQuery
