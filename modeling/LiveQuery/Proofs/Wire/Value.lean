import LiveQuery.Proofs.Wire.Message

namespace LiveQuery.Wire

variable {depth : Nat}

instance : Faithful Timestamp where
  reads t _ := Yields.reads (fun _ => rfl) fun _ =>
    (Yields.int64 (Timestamp.mk · 0) t.seconds).append (.int32 (Timestamp.mk t.seconds) t.nanos)

instance : Faithful GeoPoint where
  reads p _ := Yields.reads (fun _ => rfl) fun _ =>
    (Yields.coordinate (GeoPoint.mk · (.zero false)) p.latitude).append
      (.coordinate (GeoPoint.mk (normalCoordinate p.latitude)) p.longitude)

/-! One equation for each reader, whether there is a level left or not -/

theorem mergeValue?_eq (depth : Nat) (v : Value) : mergeValue? depth v =
    mergeFields? noMap (valueField? depth (deeper mergeItems? depth) (deeper mergeMap? depth)) depth v := by
  cases depth <;> rfl

theorem mergeItems?_eq (depth : Nat) (vs : List Value) : mergeItems? depth vs =
    mergeFields? noMap (itemField? depth (deeper mergeValue? depth .unset)) depth vs := by
  cases depth <;> rfl

theorem mergeMap?_eq (depth : Nat) (es : List (String × Value)) : mergeMap? depth es =
    mergeFields? (isMapTag 1) (mapField? depth (deeper mergeEntry? depth ("", .unset))) depth es := by
  cases depth <;> rfl

theorem mergeEntry?_eq (depth : Nat) (e : String × Value) : mergeEntry? depth e =
    mergeFields? noMap (entryField? depth (deeper mergeValue? depth)) depth e := by
  cases depth <;> rfl

/-! Reading what was written -/

theorem reads_items {vs : List Value}
    (h : ∀ v ∈ vs, Reads mergeValue? .unset (valueFields v) (levels v) (normal v)) :
    Reads mergeItems? [] (itemFields vs) (levels vs) (normal vs) := by
  rw [itemFields_eq]
  exact Yields.reads (fun depth => mergeItems?_eq depth []) fun _ => .members valueFields id h fun _ _ => rfl

theorem reads_entry {e : String × Value}
    (h : Reads mergeValue? .unset (valueFields e.2) (levels e.2) (normal e.2)) :
    Reads mergeEntry? ("", .unset) (entryContent e) (levels e) (normal e) := by
  obtain ⟨key, v⟩ := e
  refine Yields.reads (fun depth => mergeEntry?_eq depth _) (fun depth =>
    (Yields.string (fun key => (key, Value.unset)) key).append (?_ : Yields _ _ _ _ (levels (key, v)) _ _))
    (Nat.zero_max _)
  cases v with
  | unset => exact .nil _
  | _ => exact .nested h (fun v => (key, v)) fun _ => rfl

theorem reads_map {es : List (String × Value)} (hes : DistinctKeys es)
    (h : ∀ e ∈ es, Reads mergeEntry? ("", .unset) (entryContent e) (levels e) (normal e)) :
    Reads mergeMap? [] (entryFields 1 es) (levels es) (normal es) := by
  rw [entryFields_eq]
  refine Yields.reads (fun depth => mergeMap?_eq depth []) fun _ => .entries entryContent id id h
    (fun _ => rfl) (by rwa [List.map_id]) fun _ _ => rfl

theorem reads_value (v : Value) (hv : Distinct v) :
    Reads mergeValue? .unset (valueFields v) (levels v) (normal v) := by
  induction v using Value.membersInduction with
  | plain v harray hmap =>
    refine Yields.reads (fun depth => mergeValue?_eq depth _) fun depth => ?_
    cases v with
    | unset => exact .nil _
    | null n => exact .single ⟨rfl, word_lt _⟩ (congrArg (Option.map Value.null) (int32?_word n))
    | bool b =>
      exact .single ⟨rfl, Nat.lt_of_le_of_lt b.toNat_le (by decide)⟩
        (congrArg (Option.map Value.bool) (bool?_toNat b))
    | int n => exact .single ⟨rfl, word_lt _⟩ (congrArg (Option.map Value.int) (int64?_word n))
    | double x =>
      exact .single ⟨rfl, x.bits.toNat_lt⟩ (congrArg (Option.map Value.double) (double?_bits x))
    | str s => exact .single trivial (congrArg (Option.map Value.str) (string?_utf8 s))
    | bytes bs => exact .single trivial rfl
    | ref s => exact .single trivial (congrArg (Option.map Value.ref) (string?_utf8 s))
    | time t => exact .message Value.time t hv fun _ => Option.map_eq_bind
    | geo p => exact .message Value.geo p hv fun _ => Option.map_eq_bind
    | array vs => exact absurd rfl (harray vs)
    | map es => exact absurd rfl (hmap es)
  | array vs ih =>
    rw [distinct_array] at hv
    rw [levels_array, normal_array]
    refine Yields.reads (fun depth => mergeValue?_eq depth _) fun depth => ?_
    exact .nested (reads_items fun v hmem => ih v hmem (hv v hmem)) Value.array fun _ => rfl
  | map es ih =>
    rw [distinct_map] at hv
    rw [levels_map, normal_map]
    refine Yields.reads (fun depth => mergeValue?_eq depth _) fun depth => ?_
    exact .nested (reads_map hv.1 fun e hmem => reads_entry (ih e hmem (hv.2 e hmem))) Value.map fun _ => rfl

/-! What is read is no deeper than it may be, and its maps have one entry for a key -/

theorem fits_array {vs : List Value} : Fits depth (Value.array vs) ↔ Fits depth (some vs) := by
  rw [Fits, levels_array, distinct_array]
  rfl

theorem fits_map {es : List (String × Value)} : Fits depth (Value.map es) ↔ Fits depth (some es) := by
  rw [Fits, levels_map, distinct_map]
  rfl

theorem fits_items {v : Value} (hv : Fits depth v) : Fits (depth - 1) (Value.items v) := by
  cases v with
  | array vs => exact (fits_array.1 hv).pred
  | _ => exact ⟨Nat.zero_le _, nofun⟩

theorem fits_entries {v : Value} (hv : Fits depth v) : Fits (depth - 1) (Value.entries v) := by
  cases v with
  | map es => exact (fits_map.1 hv).pred
  | _ => exact ⟨Nat.zero_le _, List.nodup_nil, nofun⟩

theorem fits_unset (depth : Nat) : Fits depth Value.unset := ⟨Nat.zero_le _, trivial⟩

theorem fits_emptyEntry (depth : Nat) : Fits depth ("", Value.unset) := ⟨Nat.zero_le _, trivial⟩

theorem fits_entry {v : Value} (hv : Fits depth (some v)) (key : String) : Fits depth (key, v) := by
  cases v with
  | unset => exact ⟨Nat.zero_le _, trivial⟩
  | _ => exact hv

theorem fits_value {e : String × Value} (he : Fits depth e) : Fits (depth - 1) e.2 := by
  obtain ⟨key, v⟩ := e
  cases v with
  | unset => exact fits_unset _
  | _ => exact Fits.pred he

theorem fits_setEntry {es : List (String × Value)} {e : String × Value} (hes : Fits depth es)
    (he : Fits depth (some e)) : Fits depth (setEntry e.1 e.2 es) := by
  refine ⟨levels_le_iff.2 fun e' he' => ?_, distinctKeys_setEntry hes.2.1 _ _, fun e' he' => ?_⟩
  all_goals rcases mem_setEntry he' with rfl | hmem
  · exact he.1
  · exact levels_le_iff.1 hes.1 e' hmem
  · exact he.2
  · exact hes.2.2 e' hmem

/-- The readers of values at one depth. -/
structure KeepsValues (depth : Nat) : Prop where
  value : Keeps mergeValue? depth
  items : Keeps mergeItems? depth
  map : Keeps mergeMap? depth
  entry : Keeps mergeEntry? depth

section

variable {f : Field} {v v' : Value} {vs vs' : List Value} {es es' : List (String × Value)}
  {e e' : String × Value} (hkeeps : ∀ k < depth, KeepsValues k)

include hkeeps

theorem fits_valueField? (hv : Fits depth v)
    (h : valueField? depth (deeper mergeItems? depth) (deeper mergeMap? depth) v f = some v') :
    Fits depth v' := by
  rw [valueField?] at h
  split at h
  -- the fields that hold a message: a map, a point, an array and a time
  case h_5 =>
    obtain ⟨bs, -, h⟩ := Option.bind_eq_some_iff.1 h
    obtain ⟨es, hes, rfl⟩ := exists_of_bind h
    exact fits_map.2 (fits_deeper (fun k hk => (hkeeps k hk).map) (fits_entries hv) hes)
  case h_6 =>
    obtain ⟨p, hp, rfl⟩ := Option.map_eq_some_iff.1 h
    exact fits_nested? (m := Value.geoOrDefault v) ⟨Nat.zero_le _, trivial⟩ hp
  case h_7 =>
    obtain ⟨bs, -, h⟩ := Option.bind_eq_some_iff.1 h
    obtain ⟨vs, hvs, rfl⟩ := exists_of_bind h
    exact fits_array.2 (fits_deeper (fun k hk => (hkeeps k hk).items) (fits_items hv) hvs)
  case h_8 =>
    obtain ⟨t, ht, rfl⟩ := Option.map_eq_some_iff.1 h
    exact fits_nested? (m := Value.timeOrDefault v) ⟨Nat.zero_le _, trivial⟩ ht
  case h_12 => exact eq_of_skip? h ▸ hv
  all_goals
    obtain ⟨_, -, rfl⟩ := Option.map_eq_some_iff.1 h
    exact ⟨Nat.zero_le _, trivial⟩

theorem fits_itemField? (hvs : Fits depth vs)
    (h : itemField? depth (deeper mergeValue? depth .unset) vs f = some vs') : Fits depth vs' := by
  rw [itemField?] at h
  split at h
  · obtain ⟨bs, -, h⟩ := Option.bind_eq_some_iff.1 h
    obtain ⟨v, hv, rfl⟩ := exists_of_bind h
    exact hvs.concat (fits_deeper (fun k hk => (hkeeps k hk).value) (fits_unset _) hv)
  · exact eq_of_skip? h ▸ hvs

theorem fits_mapField? (hes : Fits depth es)
    (h : mapField? depth (deeper mergeEntry? depth ("", .unset)) es f = some es') : Fits depth es' := by
  rw [mapField?] at h
  split at h
  · obtain ⟨bs, -, h⟩ := Option.bind_eq_some_iff.1 h
    obtain ⟨e, he, rfl⟩ := exists_of_bind h
    exact fits_setEntry hes (fits_deeper (fun k hk => (hkeeps k hk).entry) (fits_emptyEntry _) he)
  · exact eq_of_skip? h ▸ hes

theorem fits_entryField? (he : Fits depth e)
    (h : entryField? depth (deeper mergeValue? depth) e f = some e') : Fits depth e' := by
  rw [entryField?] at h
  split at h
  · obtain ⟨key, -, rfl⟩ := exists_of_bind h
    exact he
  · obtain ⟨bs, -, h⟩ := Option.bind_eq_some_iff.1 h
    obtain ⟨v, hv, rfl⟩ := exists_of_bind h
    exact fits_entry (fits_deeper (fun k hk => (hkeeps k hk).value) (fits_value he) hv) _
  · exact eq_of_skip? h ▸ he

end

theorem keepsValues (depth : Nat) : KeepsValues depth := by
  -- each reader calls only readers one level down, so the four go together
  induction depth using Nat.strongRecOn with
  | ind depth ih =>
    exact {
      value v bs v' hv h := mergeFields?_induction (fun _ _ _ => fits_valueField? ih) hv
        (mergeValue?_eq depth v ▸ h)
      items vs bs vs' hvs h := mergeFields?_induction (fun _ _ _ => fits_itemField? ih) hvs
        (mergeItems?_eq depth vs ▸ h)
      map es bs es' hes h := mergeFields?_induction (fun _ _ _ => fits_mapField? ih) hes
        (mergeMap?_eq depth es ▸ h)
      entry e bs e' he h := mergeFields?_induction (fun _ _ _ => fits_entryField? ih) he
        (mergeEntry?_eq depth e ▸ h) }

end LiveQuery.Wire
