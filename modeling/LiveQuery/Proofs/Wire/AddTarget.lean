import LiveQuery.ListenTarget
import LiveQuery.Proofs.Wire.RoundTrip

namespace LiveQuery

/-- Where a target goes on from, given a token: an empty one counts as none. -/
def ResumePoint.ofToken : Option Bytes → ResumePoint
  | some (b :: bs) => .token (b :: bs)
  | _ => .start

namespace ListenTarget

/-- What a target of a stream listens to, if a watch can. -/
def ofTarget? (target : Target) : Option ListenTarget :=
  match target.kind with
  | .documents [name] => some (.document (.ofString name))
  | .query parent (some structured) => some (.query parent structured)
  | _ => none

theorem ofTarget?_toTarget (target : ListenTarget) (id : Int32) (token : Option Bytes) :
    ofTarget? (target.toTarget id token) = some target := by
  cases target with
  | document path => exact congrArg (fun path => some (document path)) path.ofString_text
  | query parent structured => rfl

theorem resume_withResumeToken (target : Target) (token : Option Bytes) :
    (target.withResumeToken token).resume = .ofToken token := by
  cases token with
  | none => rfl
  | some bs => cases bs <;> rfl

theorem toTarget_eq (target : ListenTarget) (id : Int32) (token : Option Bytes) :
    target.toTarget id token = ⟨(target.toTarget id token).kind, .ofToken token, id, false⟩ := by
  cases target with
  | document path => rw [← resume_withResumeToken (Target.documents id [path.text])]; rfl
  | query parent structured => rw [← resume_withResumeToken (Target.query id parent structured)]; rfl

end ListenTarget

namespace Wire

open ListenTarget (ofTarget? ofTarget?_toTarget toTarget_eq)

variable {request : ListenRequest} {database database' : String} {target target' : ListenTarget}
  {id id' : Int32} {token token' : Option Bytes}

/-- The request adds one target to a stream of the database, with no label and nothing else. The target
stays, has the id, goes on from the token, and is the one to listen to. -/
structure Adds (request : ListenRequest) (database : String) (target : ListenTarget) (id : Int32)
    (token : Option Bytes) : Prop where
  database_eq : request.database = database
  labels_eq : request.labels = []
  added : ∃ added, request.addedTarget? = some added ∧ added.id = id ∧ added.once = false ∧
    added.resume = .ofToken token ∧ ofTarget? added = some target

theorem adds_addTarget (database : String) (target : ListenTarget) (id : Int32) (token : Option Bytes) :
    Adds (.addTarget database (target.toTarget id token)) database target id token where
  database_eq := rfl
  labels_eq := rfl
  added := by
    refine ⟨_, rfl, ?_, ?_, ?_, ofTarget?_toTarget target id token⟩
    all_goals rw [toTarget_eq]

theorem Adds.unique (h : Adds request database target id token)
    (h' : Adds request database' target' id' token') :
    database' = database ∧ id' = id ∧ target' = target ∧
      ResumePoint.ofToken token' = .ofToken token := by
  obtain ⟨added, hadded, hid, -, hresume, htarget⟩ := h.added
  obtain ⟨added', hadded', hid', -, hresume', htarget'⟩ := h'.added
  obtain rfl : added' = added := Option.some.inj (hadded'.symm.trans hadded)
  exact ⟨h'.database_eq.symm.trans h.database_eq, hid'.symm.trans hid,
    Option.some.inj (htarget'.symm.trans htarget), hresume'.symm.trans hresume⟩

/-- The target and its kind are the only levels of such a request. -/
theorem levels_addTarget (database : String) (target : ListenTarget) (id : Int32) (token : Option Bytes) :
    levels (ListenRequest.addTarget database (target.toTarget id token)) = 2 := by
  have hresume : levels (ResumePoint.ofToken token) = 0 := by
    rw [ResumePoint.ofToken.eq_def]
    split <;> rfl
  change max (max (levels (target.toTarget id token).kind) (levels (target.toTarget id token).resume) + 1) 0 = 2
  rw [toTarget_eq, hresume]
  cases target <;> rfl

theorem decode?_encode_addTarget
    (hshort : (encode (ListenRequest.addTarget database (target.toTarget id token))).length < UInt64.size) :
    decode? (encode (ListenRequest.addTarget database (target.toTarget id token))) =
      some (ListenRequest.addTarget database (target.toTarget id token)) := by
  rw [(Faithful.roundTrips ListenRequest).decode?_encode _ List.nodup_nil hshort, levels_addTarget]
  rfl

/-- A request to listen reads back as it was made, and what it listens to can be told from it. So two
requests with the same bytes agree in everything, but that an empty token is as good as none. The bound is
that of a 64-bit length, which every request in memory meets. -/
theorem addTarget_faithful (database : String) (target : ListenTarget) (id : Int32) (token : Option Bytes)
    (hshort : (encode (ListenRequest.addTarget database (target.toTarget id token))).length < UInt64.size) :
    (∃ request, decode? (encode (ListenRequest.addTarget database (target.toTarget id token))) = some request ∧
        Adds request database target id token) ∧
      ∀ database' target' id' token',
        encode (ListenRequest.addTarget database' (target'.toTarget id' token')) =
            encode (ListenRequest.addTarget database (target.toTarget id token)) →
          database' = database ∧ id' = id ∧ target' = target ∧
            ResumePoint.ofToken token' = .ofToken token := by
  have hdecode := decode?_encode_addTarget hshort
  refine ⟨⟨_, hdecode, adds_addTarget database target id token⟩, ?_⟩
  intro database' target' id' token' hbytes
  have hdecode' := decode?_encode_addTarget (hbytes ▸ hshort)
  rw [hbytes, hdecode, Option.some.injEq] at hdecode'
  have hadds := adds_addTarget database' target' id' token'
  rw [← hdecode'] at hadds
  exact (adds_addTarget database target id token).unique hadds

/-- A request in which everything that can be left out is, so that all that is written is an empty query in
an empty target; and one for a document that goes on from a token. Without the token its bytes are others. -/
theorem addTarget_faithful_resumed :
    let target := ListenTarget.document (.ofString "c/a")
    (∃ request, decode? [18, 4, 18, 2, 18, 0] = some request ∧ Adds request "" (.query "" []) 0 (some [])) ∧
      (∃ request, decode? (encode (ListenRequest.addTarget "d" (target.toTarget 1 (some [7])))) = some request ∧
        Adds request "d" target 1 (some [7])) ∧
      encode (ListenRequest.addTarget "d" (target.toTarget 1 none)) ≠
        encode (ListenRequest.addTarget "d" (target.toTarget 1 (some [7]))) := by
  intro target
  have hempty : encode (ListenRequest.addTarget "" ((ListenTarget.query "" []).toTarget 0 (some []))) =
      [18, 4, 18, 2, 18, 0] := by
    decide +kernel
  have hresumed : encode (ListenRequest.addTarget "d" (target.toTarget 1 (some [7]))) =
      [10, 1, 100, 18, 12, 26, 5, 18, 3, 99, 47, 97, 34, 1, 7, 40, 1] := by
    decide +kernel
  have hquery := addTarget_faithful "" (.query "" []) 0 (some []) (by rw [hempty]; decide)
  rw [hempty] at hquery
  obtain ⟨hreads, hunique⟩ := addTarget_faithful "d" target 1 (some [7]) (by rw [hresumed]; decide)
  refine ⟨hquery.1, hreads, fun hbytes => ?_⟩
  obtain ⟨-, -, -, htoken⟩ := hunique "d" target 1 none hbytes
  cases htoken

end Wire

end LiveQuery
