import LiveQuery.Document

namespace LiveQuery

/-- A detail of a status: bytes of the type that a URL names. -/
structure Detail where
  typeUrl : String
  value : Bytes
  deriving DecidableEq

structure Status where
  code : Int32
  message : String
  details : List Detail
  deriving DecidableEq

inductive TargetChangeKind where
  | noChange
  | add
  | remove
  | current
  | reset
  deriving DecidableEq

namespace TargetChangeKind

def number : TargetChangeKind → Int32
  | noChange => 0
  | add => 1
  | remove => 2
  | current => 3
  | reset => 4

def name : TargetChangeKind → String
  | noChange => "NO_CHANGE"
  | add => "ADD"
  | remove => "REMOVE"
  | current => "CURRENT"
  | reset => "RESET"

def all : List TargetChangeKind := [noChange, add, remove, current, reset]

def ofNumber? (n : Int32) : Option TargetChangeKind := all.find? (·.number == n)

def ofName? (s : String) : Option TargetChangeKind := all.find? (·.name == s)

theorem ofNumber?_eq_some_iff {n : Int32} {kind : TargetChangeKind} :
    ofNumber? n = some kind ↔ n = kind.number := by
  constructor
  · intro h
    have hfound := List.find?_some h
    exact (eq_of_beq hfound).symm
  · rintro rfl
    cases kind <;> rfl

theorem ofNumber?_eq_none_iff {n : Int32} : ofNumber? n = none ↔ n.toInt < 0 ∨ 4 < n.toInt := by
  have hnumber (kind : TargetChangeKind) : kind.number = n ↔ kind.number.toInt = n.toInt :=
    Int32.toInt_inj.symm
  unfold ofNumber?
  rw [List.find?_eq_none]
  simp only [all, List.mem_cons, List.not_mem_nil, or_false, beq_iff_eq, hnumber, forall_eq_or_imp,
    forall_eq]
  change (¬ (0 : Int) = n.toInt ∧ ¬ (1 : Int) = n.toInt ∧ ¬ (2 : Int) = n.toInt ∧
    ¬ (3 : Int) = n.toInt ∧ ¬ (4 : Int) = n.toInt) ↔ _
  omega

end TargetChangeKind

/-- News about targets. Without target ids it concerns all targets of the stream. -/
structure TargetChange where
  kind : Int32
  targetIds : List Int32
  cause : Option Status
  resumeToken : Bytes
  readTime : Option Timestamp

def TargetChange.affects (change : TargetChange) (targetId : Int32) : Bool :=
  change.targetIds.isEmpty || change.targetIds.contains targetId

structure DocumentChange where
  document : Option Document
  targetIds : List Int32
  removedTargetIds : List Int32

structure DocumentDelete where
  document : String
  removedTargetIds : List Int32
  readTime : Option Timestamp
  deriving DecidableEq

structure DocumentRemove where
  document : String
  removedTargetIds : List Int32
  readTime : Option Timestamp
  deriving DecidableEq

/-- How many documents the backend counts in a target. -/
structure ExistenceFilter where
  targetId : Int32
  count : Int32
  deriving DecidableEq

inductive ListenResponse where
  | unset
  | targetChange (change : TargetChange)
  | documentChange (change : DocumentChange)
  | documentDelete (delete : DocumentDelete)
  | documentRemove (remove : DocumentRemove)
  | filter (filter : ExistenceFilter)

inductive TargetKind where
  | unset
  | query (parent : String) (structured : Option Bytes)
  | documents (names : List String)
  deriving DecidableEq

/-- From where a target continues. -/
inductive ResumePoint where
  | start
  | token (token : Bytes)
  | readTime (time : Timestamp)
  deriving DecidableEq

structure Target where
  kind : TargetKind
  resume : ResumePoint
  id : Int32
  once : Bool
  deriving DecidableEq

namespace Target

def documents (id : Int32) (names : List String) : Target := ⟨.documents names, .start, id, false⟩

def query (id : Int32) (parent : String) (structured : Bytes) : Target :=
  ⟨.query parent (some structured), .start, id, false⟩

/-- Continues from a token; an empty one counts as none. -/
def withResumeToken (target : Target) (token : Option Bytes) : Target :=
  { target with resume := match token.filter (!·.isEmpty) with
    | some token => .token token
    | none => .start }

def resumeToken? (target : Target) : Option Bytes :=
  match target.resume with
  | .token token => some token
  | _ => none

end Target

inductive RequestChange where
  | unset
  | addTarget (target : Target)
  | removeTarget (id : Int32)
  deriving DecidableEq

structure ListenRequest where
  database : String
  change : RequestChange
  labels : List (String × String)
  deriving DecidableEq

namespace ListenRequest

/-- The request that opens a target on a fresh stream. -/
def addTarget (database : String) (target : Target) : ListenRequest := ⟨database, .addTarget target, []⟩

def addedTarget? (request : ListenRequest) : Option Target :=
  match request.change with
  | .addTarget target => some target
  | _ => none

end ListenRequest

end LiveQuery
