import LiveQuery.Proofs.Wire.MapOrder
import LiveQuery.Proofs.Wire.Size
import LiveQuery.Proofs.Wire.Value

namespace LiveQuery.Wire

variable {depth : Nat} {p : Payload}

/-! Documents -/

theorem nestedMember?_bytes (depth : Nat) (es : List (String × Value)) (bs : Bytes) :
    nestedMember? depth es (.bytes bs) =
      (deeper mergeEntry? depth ("", .unset) bs).bind fun e => some (setEntry e.1 e.2 es) := by
  cases depth <;> rfl

theorem fits_nestedMember? {es es' : List (String × Value)} (hes : Fits depth es)
    (h : nestedMember? depth es p = some es') : Fits depth es' := by
  cases p with
  | bytes bs =>
    rw [nestedMember?_bytes] at h
    obtain ⟨e, he, rfl⟩ := exists_of_bind h
    exact fits_setEntry hes (fits_deeper (fun k _ => (keepsValues k).entry) (fits_emptyEntry _) he)
  | varint | fixed64 | group | fixed32 => cases depth <;> cases h

/-- Times have no map and no coordinate in them. -/
theorem normal_times (o : Option Timestamp) : normal o = o := Option.map_id_apply

theorem yields_fields {α : Type} {step : α → Field → Option α} (set : List (String × Value) → α)
    (es : List (String × Value)) (hes : Distinct es)
    (hstep : ∀ es p, step (set es) ⟨2, p⟩ = (nestedMember? depth es p).bind fun es => some (set es)) :
    Yields (isMapTag 2) step depth (entryFields 2 es) (levels es) (set []) (set (normal es)) := by
  rw [entryFields_eq]
  refine .entries entryContent set id (fun e he => reads_entry (reads_value e.2 (hes.2 e he))) (fun _ => rfl)
    (by rw [List.map_id]; exact hes.1) fun es bs => ?_
  rw [hstep, nestedMember?_bytes]
  cases deeper mergeEntry? depth ("", .unset) bs <;> rfl

instance : Faithful Document where
  reads d hd :=
    Yields.reads (fun _ => rfl) (fun _ =>
      Yields.string (Document.mk · [] none none) d.name
        |>.append (yields_fields (Document.mk d.name · none none) d.fields hd fun _ _ => rfl)
        |>.append (.optional (Document.mk d.name (normal d.fields) · none) (fun _ _ => trivial)
          (normal_times d.createTime))
        |>.append (.optional (Document.mk d.name (normal d.fields) d.createTime) (fun _ _ => trivial)
          (normal_times d.updateTime)))
      (by rw [Nat.zero_max]; rfl)
  keeps depth d bs d' hd h := by
    refine mergeFields?_induction (P := Fits depth) (fun d f d' hd h => ?_) hd h
    obtain ⟨htimes, hupdate⟩ := Nat.max_le.1 hd.1
    obtain ⟨hfields, hcreate⟩ := Nat.max_le.1 htimes
    split at h
    case h_1 =>
      obtain ⟨_, -, rfl⟩ := exists_of_bind h
      exact hd
    case h_2 =>
      obtain ⟨es, hes, rfl⟩ := exists_of_bind h
      obtain ⟨hlevels, hdistinct⟩ := fits_nestedMember? ⟨hfields, hd.2⟩ hes
      exact ⟨Nat.max_le.2 ⟨Nat.max_le.2 ⟨hlevels, hcreate⟩, hupdate⟩, hdistinct⟩
    case h_3 =>
      obtain ⟨t, ht, rfl⟩ := exists_of_bind h
      have hlevels := levels_optional? (fun _ => trivial) hcreate ht
      exact ⟨Nat.max_le.2 ⟨Nat.max_le.2 ⟨hfields, hlevels⟩, hupdate⟩, hd.2⟩
    case h_4 =>
      obtain ⟨t, ht, rfl⟩ := exists_of_bind h
      have hlevels := levels_optional? (fun _ => trivial) hupdate ht
      exact ⟨Nat.max_le.2 ⟨htimes, hlevels⟩, hd.2⟩
    case h_5 => exact eq_of_skip? h ▸ hd
  fits_default _ := ⟨Nat.zero_le _, List.nodup_nil, nofun⟩

/-! Responses -/

instance : Faithful Detail where
  reads d _ := Yields.reads (fun _ => rfl) fun _ =>
    Yields.string (Detail.mk · []) d.typeUrl |>.append (.bytes (Detail.mk d.typeUrl) d.value)

instance : Faithful Status where
  reads s _ :=
    Yields.reads (fun _ => rfl) (fun _ =>
      Yields.int32 (Status.mk · "" []) s.code
        |>.append (.string (Status.mk s.code · []) s.message)
        |>.append (.repeated (Status.mk s.code s.message) (fun _ _ => trivial) (List.map_id s.details)))
      (Nat.zero_max _)
  keeps depth s bs s' hs h := by
    refine ⟨mergeFields?_induction (P := fun s => levels s ≤ depth) (fun s f s' hs h => ?_) hs.1 h, trivial⟩
    split at h
    case h_3 =>
      obtain ⟨ds, hds, rfl⟩ := exists_of_bind h
      exact (fits_repeated? ⟨hs, fun _ _ => trivial⟩ hds).1
    case h_4 => exact eq_of_skip? h ▸ hs
    all_goals
      obtain ⟨_, -, rfl⟩ := exists_of_bind h
      exact hs

instance : Faithful TargetChange where
  reads c _ :=
    Yields.reads (fun _ => rfl) (fun _ =>
      Yields.int32 (TargetChange.mk · [] none [] none) c.kind
        |>.append (.packed (TargetChange.mk c.kind · none [] none) c.targetIds)
        |>.append (.optional (TargetChange.mk c.kind c.targetIds · [] none) (fun _ _ => trivial)
          (Option.map_id_apply (x := c.cause)))
        |>.append (.bytes (TargetChange.mk c.kind c.targetIds c.cause · none) c.resumeToken)
        |>.append (.optional (TargetChange.mk c.kind c.targetIds c.cause c.resumeToken) (fun _ _ => trivial)
          (normal_times c.readTime)))
      (by rw [Nat.max_self, Nat.zero_max, Nat.max_zero]; rfl)
  keeps depth c bs c' hc h := by
    refine ⟨mergeFields?_induction (P := fun c => levels c ≤ depth) (fun c f c' hc h => ?_) hc.1 h, trivial⟩
    obtain ⟨hcause, hread⟩ := Nat.max_le.1 hc
    split at h
    case h_3 =>
      obtain ⟨s, hs, rfl⟩ := exists_of_bind h
      exact Nat.max_le.2 ⟨levels_optional? (fun _ => trivial) hcause hs, hread⟩
    case h_5 =>
      obtain ⟨t, ht, rfl⟩ := exists_of_bind h
      exact Nat.max_le.2 ⟨hcause, levels_optional? (fun _ => trivial) hread ht⟩
    case h_6 => exact eq_of_skip? h ▸ hc
    all_goals
      obtain ⟨_, -, rfl⟩ := exists_of_bind h
      exact hc

instance : Faithful DocumentChange where
  reads c hc :=
    Yields.reads (fun _ => rfl) (fun _ =>
      Yields.optional (DocumentChange.mk · [] []) (distinct_of_mem hc) rfl
        |>.append (.packed (DocumentChange.mk (normal c.document) · []) c.targetIds)
        |>.append (.packed (DocumentChange.mk (normal c.document) c.targetIds) c.removedTargetIds))
      (by rw [Nat.max_zero, Nat.max_zero]; rfl)
  keeps depth c bs c' hc h := by
    refine mergeFields?_induction (P := Fits depth) (fun c f c' hc h => ?_) hc h
    split at h
    case h_1 =>
      obtain ⟨d, hd, rfl⟩ := exists_of_bind h
      exact fits_optional? hc hd
    case h_4 => exact eq_of_skip? h ▸ hc
    all_goals
      obtain ⟨_, -, rfl⟩ := exists_of_bind h
      exact hc

instance : Faithful DocumentDelete where
  reads d _ :=
    Yields.reads (fun _ => rfl) (fun _ =>
      Yields.string (DocumentDelete.mk · [] none) d.document
        |>.append (.optional (DocumentDelete.mk d.document [] ·) (fun _ _ => trivial)
          (normal_times d.readTime))
        |>.append (.packed (DocumentDelete.mk d.document · d.readTime) d.removedTargetIds))
      (by rw [Nat.zero_max, Nat.max_zero]; rfl)
  keeps depth d bs d' hd h := by
    refine ⟨mergeFields?_induction (P := fun d => levels d ≤ depth) (fun d f d' hd h => ?_) hd.1 h, trivial⟩
    split at h
    case h_2 =>
      obtain ⟨t, ht, rfl⟩ := exists_of_bind h
      exact levels_optional? (fun _ => trivial) hd ht
    case h_4 => exact eq_of_skip? h ▸ hd
    all_goals
      obtain ⟨_, -, rfl⟩ := exists_of_bind h
      exact hd

instance : Faithful DocumentRemove where
  reads d _ :=
    Yields.reads (fun _ => rfl) (fun _ =>
      Yields.string (DocumentRemove.mk · [] none) d.document
        |>.append (.packed (DocumentRemove.mk d.document · none) d.removedTargetIds)
        |>.append (.optional (DocumentRemove.mk d.document d.removedTargetIds) (fun _ _ => trivial)
          (normal_times d.readTime)))
      (Nat.zero_max _)
  keeps depth d bs d' hd h := by
    refine ⟨mergeFields?_induction (P := fun d => levels d ≤ depth) (fun d f d' hd h => ?_) hd.1 h, trivial⟩
    split at h
    case h_3 =>
      obtain ⟨t, ht, rfl⟩ := exists_of_bind h
      exact levels_optional? (fun _ => trivial) hd ht
    case h_4 => exact eq_of_skip? h ▸ hd
    all_goals
      obtain ⟨_, -, rfl⟩ := exists_of_bind h
      exact hd

instance : Faithful ExistenceFilter where
  reads e _ := Yields.reads (fun _ => rfl) fun _ =>
    Yields.int32 (ExistenceFilter.mk · 0) e.targetId |>.append (.int32 (ExistenceFilter.mk e.targetId) e.count)

instance : Faithful ListenResponse where
  reads r hr := by
    refine Yields.reads (fun _ => rfl) fun _ => ?_
    cases r with
    | unset => exact .nil _
    | targetChange c => exact .message ListenResponse.targetChange c trivial fun _ => Option.map_eq_bind
    | documentChange c => exact .message ListenResponse.documentChange c hr fun _ => Option.map_eq_bind
    | documentDelete d => exact .message ListenResponse.documentDelete d trivial fun _ => Option.map_eq_bind
    | documentRemove d => exact .message ListenResponse.documentRemove d trivial fun _ => Option.map_eq_bind
    | filter e => exact .message ListenResponse.filter e trivial fun _ => Option.map_eq_bind
  keeps depth r bs r' hr h := by
    refine mergeFields?_induction (P := Fits depth) (fun r f r' hr h => ?_) hr h
    split at h
    case h_6 => exact eq_of_skip? h ▸ hr
    -- a message merges into a member of its kind, or into a new one
    all_goals
      obtain ⟨m, hm, rfl⟩ := Option.map_eq_some_iff.1 h
      refine fits_nested? ?_ hm
      cases r
      all_goals first | exact Fits.pred hr | exact Faithful.fits_default _
  fits_default _ := ⟨Nat.zero_le _, trivial⟩

/-! Requests -/

instance : Faithful QueryTarget where
  reads q _ := by
    refine Yields.reads (fun _ => rfl) fun _ => (Yields.string (QueryTarget.mk · none) q.parent).append
      (?_ : Yields _ _ _ _ 0 _ (QueryTarget.mk q.parent q.structured))
    cases q.structured with
    | none => exact .nil _
    | some query => exact .single trivial rfl

instance : Faithful DocumentsTarget where
  reads d _ := Yields.reads (fun _ => rfl) fun _ => .strings DocumentsTarget.mk d.names

instance : Faithful Target where
  reads t _ := by
    refine Yields.reads (fun _ => rfl) (fun _ =>
      (?kind : Yields _ _ _ (Target.kindFields t.kind) (levels t.kind) _ (Target.mk t.kind .start 0 false))
        |>.append (?resume : Yields _ _ _ (Target.resumeFields t.resume) (levels t.resume) _
          (Target.mk t.kind t.resume 0 false))
        |>.append (.int32 (Target.mk t.kind t.resume · false) t.id)
        |>.append (.bool (Target.mk t.kind t.resume t.id) t.once))
      (by rw [Nat.max_zero, Nat.max_zero]; rfl)
    case kind =>
      cases t.kind with
      | unset => exact .nil _
      | query parent structured =>
        exact .message (fun q : QueryTarget => Target.mk (.query q.parent q.structured) .start 0 false)
          ⟨parent, structured⟩ trivial
      | documents names =>
        exact .message (fun d : DocumentsTarget => Target.mk (.documents d.names) .start 0 false)
          ⟨names⟩ trivial
    case resume =>
      cases t.resume with
      | start => exact .nil _
      | token token => exact .single trivial rfl
      | readTime time => exact .message (fun time => Target.mk t.kind (.readTime time) 0 false) time trivial
  keeps depth t bs t' ht h := by
    refine ⟨mergeFields?_induction (P := fun t => levels t ≤ depth) (fun t f t' ht h => ?_) ht.1 h, trivial⟩
    obtain ⟨hkind, hresume⟩ := Nat.max_le.1 ht
    split at h
    case h_1 =>
      obtain ⟨q, hq, rfl⟩ := exists_of_bind h
      exact Nat.max_le.2 ⟨(fits_nested? ⟨Nat.zero_le _, trivial⟩ hq).1, hresume⟩
    case h_2 =>
      obtain ⟨d, hd, rfl⟩ := exists_of_bind h
      exact Nat.max_le.2 ⟨(fits_nested? ⟨Nat.zero_le _, trivial⟩ hd).1, hresume⟩
    case h_3 =>
      obtain ⟨token, -, rfl⟩ := exists_of_bind h
      exact Nat.max_le.2 ⟨hkind, Nat.zero_le _⟩
    case h_6 =>
      obtain ⟨time, htime, rfl⟩ := exists_of_bind h
      exact Nat.max_le.2 ⟨hkind, (fits_nested? ⟨Nat.zero_le _, trivial⟩ htime).1⟩
    case h_7 => exact eq_of_skip? h ▸ ht
    all_goals
      obtain ⟨_, -, rfl⟩ := exists_of_bind h
      exact ht

instance : Faithful Label where
  reads l _ := Yields.reads (fun _ => rfl) fun _ =>
    Yields.string (Label.mk · "") l.key |>.append (.string (Label.mk l.key) l.value)

theorem fits_addedOrDefault {change : RequestChange} (h : levels change ≤ depth) :
    Fits (depth - 1) (addedOrDefault change) := by
  cases change with
  | addTarget t => exact ⟨Nat.le_sub_of_add_le h, trivial⟩
  | unset | removeTarget => exact Faithful.fits_default _

theorem yields_labels {α : Type} {step : α → Field → Option α} (set : List (String × String) → α)
    (labels : List (String × String)) (hlabels : DistinctKeys labels)
    (hstep : ∀ labels p, step (set labels) ⟨4, p⟩ =
      (nested? depth Message.default p).bind fun l : Label => some (set (setEntry l.key l.value labels))) :
    Yields (isMapTag 4) step depth (labels.map fun (key, value) => ofMessage 4 (Label.mk key value))
      (levels (labelMessages labels)) (set []) (set labels) := by
  have hfields : labels.map (fun (key, value) => ofMessage 4 (Label.mk key value)) =
      (labelMessages labels).map fun l => .ofFields 4 (Message.fields l) := by
    rw [labelMessages, List.map_map]
    rfl
  have hentries : (labelMessages labels).map (fun l => (l.key, l.value)) = labels := by
    rw [labelMessages, List.map_map]
    exact List.map_id labels
  have hyields : Yields (isMapTag 4) step depth _ (levels (labelMessages labels)) (set [])
      (set ((labelMessages labels).map fun l => (l.key, l.value))) :=
    .entries Message.fields set _ (fun l _ => Faithful.reads l trivial) (fun _ => rfl)
      (hentries.symm ▸ hlabels) fun labels bs => by rw [hstep, nested?_bytes]
  rwa [hentries, ← hfields] at hyields

instance : Faithful ListenRequest where
  reads r hr := by
    refine Yields.reads (fun _ => rfl) (fun depth =>
      Yields.string (ListenRequest.mk · .unset []) r.database
        |>.append (?change : Yields _ _ _ (requestChangeFields r.change) (levels r.change) _ _)
        |>.append (yields_labels (ListenRequest.mk r.database r.change) r.labels hr fun _ _ => rfl))
      (by rw [Nat.zero_max]; rfl)
    case change =>
      cases r.change with
      | unset => exact .nil _
      | addTarget t => exact .message (fun t => ListenRequest.mk r.database (.addTarget t) []) t trivial
      | removeTarget id =>
        exact .single ⟨rfl, word_lt _⟩ (congrArg (fun x : Option Int32 => x.bind fun id =>
          some (ListenRequest.mk r.database (.removeTarget id) [])) (int32?_word id))
  keeps depth r bs r' hr h := by
    refine mergeFields?_induction (P := Fits depth) (fun r f r' hr h => ?_) hr h
    obtain ⟨hchange, hlabels⟩ := Nat.max_le.1 hr.1
    split at h
    case h_1 =>
      obtain ⟨_, -, rfl⟩ := exists_of_bind h
      exact hr
    case h_2 =>
      obtain ⟨t, ht, rfl⟩ := exists_of_bind h
      exact ⟨Nat.max_le.2 ⟨(fits_nested? (fits_addedOrDefault hchange) ht).1, hlabels⟩, hr.2⟩
    case h_3 =>
      obtain ⟨id, -, rfl⟩ := exists_of_bind h
      exact ⟨Nat.max_le.2 ⟨Nat.zero_le _, hlabels⟩, hr.2⟩
    case h_4 =>
      obtain ⟨l, hl, rfl⟩ := exists_of_bind h
      have hlevel : 1 ≤ depth := (fits_nested? (Faithful.fits_default _) hl).1
      exact ⟨Nat.max_le.2 ⟨hchange, levels_le_iff.2 fun _ _ => hlevel⟩, distinctKeys_setEntry hr.2 _ _⟩
    case h_5 => exact eq_of_skip? h ▸ hr
  fits_default _ := ⟨Nat.zero_le _, List.nodup_nil⟩

/-! Round trips -/

/-- The laws of a type of messages. A message comes back when it nests no deeper than it may and is refused
otherwise, its size is told without writing it, and whatever was read from any bytes comes back when it is
written again, in whatever order its maps are then written. A map is the list of its entries in the order in
which they are written, so these laws are about every order. The bound is that of a 64-bit length, which
every message in memory meets. -/
structure RoundTrips (α : Type) [Message α] [Sized α] [Nested α] [Reorderable α] : Prop where
  decode?_encode (a : α) : Distinct a → (encode a).length < UInt64.size →
    decode? (encode a) = if levels a ≤ maxDepth then some (normal a) else none
  length_encode (a : α) : (encode a).length = size a
  decode?_encode_of_decode? (bs : Bytes) (a b : α) : decode? bs = some a → Reorders a b →
    (encode b).length < UInt64.size → decode? (encode b) = some (normal b)

theorem Faithful.roundTrips (α : Type) [Message α] [Sized α] [Nested α] [Faithful α] [Measured α]
    [Reorderable α] : RoundTrips α where
  decode?_encode a ha hshort := reads a ha hshort maxDepth
  length_encode := Measured.length_fields
  decode?_encode_of_decode? bs a b h hreorders hshort := by
    obtain ⟨hlevels, hdistinct⟩ := keeps _ _ bs a (fits_default maxDepth) h
    rw [← Reorderable.levels_eq hreorders] at hlevels
    exact (reads b (Reorderable.distinct hreorders hdistinct) hshort maxDepth).trans (if_pos hlevels)

/-- The messages of the stream, a document and a status by themselves included. -/
theorem messages_roundTrip :
    RoundTrips ListenResponse ∧ RoundTrips ListenRequest ∧ RoundTrips Document ∧ RoundTrips Status :=
  ⟨Faithful.roundTrips _, Faithful.roundTrips _, Faithful.roundTrips _, Faithful.roundTrips _⟩

/-- A value in so many arrays. -/
def nestedArrays : Nat → Value
  | 0 => .null 0
  | n + 1 => .array [nestedArrays n]

def arraysDocument (n : Nat) : Document := ⟨"", [("a", nestedArrays n)], none, none⟩

theorem distinct_arraysDocument (n : Nat) : Distinct (arraysDocument n) := by
  have hvalue : Distinct (nestedArrays n) := by
    induction n with
    | zero => trivial
    | succ n ih => exact (distinct_array _).2 fun v hv => List.mem_singleton.1 hv ▸ ih
  exact ⟨List.nodup_cons.2 ⟨nofun, List.nodup_nil⟩, fun e he => List.mem_singleton.1 he ▸ hvalue⟩

/-- An entry and its value are two levels and an array in it is two more, so forty-nine arrays are the most. -/
theorem messages_roundTrip_nestedArrays :
    decode? (encode (arraysDocument 49)) = some (arraysDocument 49) ∧
      decode? (encode (arraysDocument 50)) = (none : Option Document) := by
  obtain ⟨hdecode, hlength, -⟩ := messages_roundTrip.2.2.1
  constructor
  · rw [hdecode _ (distinct_arraysDocument 49) (by rw [hlength]; decide +kernel), if_pos (by decide +kernel)]
    rfl
  · rw [hdecode _ (distinct_arraysDocument 50) (by rw [hlength]; decide +kernel), if_neg (by decide +kernel)]

end LiveQuery.Wire
