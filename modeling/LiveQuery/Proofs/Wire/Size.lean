import LiveQuery.Proofs.Wire.Field
import LiveQuery.Proofs.Wire.Nesting

namespace LiveQuery.Wire

variable {α γ : Type} {tag wireType : Nat}

/-! The bytes of a field -/

/-- The wire type does not lengthen a key. -/
theorem length_key (tag : Nat) (h : wireType < 8) : (key tag wireType).length = keySize tag := by
  rw [key, length_varint, keySize, varintSize, varintSize]
  by_cases htag : tag = 0
  · have hlog : wireType.log2 < 3 := log2_lt_of_lt h (by decide)
    rw [htag, Nat.mul_zero, Nat.zero_add, Nat.log2_zero]
    omega
  · have hlog (w : Nat) (hw : w < 8) : (8 * tag + w).log2 = tag.log2 + 3 := by
      have hdiv : (8 * tag + w) / 2 ^ 3 = tag := by omega
      rw [← log2_div_two_pow (n := 8 * tag + w) (k := 3) (by omega), hdiv]
    rw [hlog wireType h, ← hlog 0 (by decide)]
    rfl

@[simp] theorem length_encode_varint (tag n : Nat) :
    (Field.encode ⟨tag, .varint n⟩).length = varintFieldSize tag n := by
  rw [Field.encode, List.length_append, length_key tag (by decide), length_varint, varintFieldSize]

@[simp] theorem length_encode_fixed64 (tag n : Nat) :
    (Field.encode ⟨tag, .fixed64 n⟩).length = keySize tag + 8 := by
  rw [Field.encode, List.length_append, length_key tag (by decide), length_littleEndian]

@[simp] theorem length_encode_bytes (tag : Nat) (bs : Bytes) :
    (Field.encode ⟨tag, .bytes bs⟩).length = delimitedSize tag bs.length := by
  rw [Field.encode, List.length_append, List.length_append, length_key tag (by decide), length_varint,
    delimitedSize]

/-! Fields, one after the other -/

@[simp] theorem length_encodeFields_nil : (encodeFields []).length = 0 := rfl

@[simp] theorem length_encodeFields_cons (f : Field) (fs : List Field) :
    (encodeFields (f :: fs)).length = f.encode.length + (encodeFields fs).length := by
  rw [encodeFields_cons, List.length_append]

theorem length_encodeFields_singleton (f : Field) : (encodeFields [f]).length = f.encode.length := by
  rw [length_encodeFields_cons, length_encodeFields_nil, Nat.add_zero]

@[simp] theorem length_encodeFields_append (fs gs : List Field) :
    (encodeFields (fs ++ gs)).length = (encodeFields fs).length + (encodeFields gs).length := by
  rw [encodeFields_append, List.length_append]

theorem length_omitting [BEq γ] [LawfulBEq γ] (default : γ) (field : γ → Field) (x : γ)
    [Decidable (x = default)] :
    (encodeFields (omitting default field x)).length = if x = default then 0 else (field x).encode.length := by
  rw [omitting]
  by_cases h : x = default
  · rw [if_pos (beq_iff_eq.2 h), if_pos h, length_encodeFields_nil]
  · rw [if_neg (mt beq_iff_eq.1 h), if_neg h, length_encodeFields_singleton]

@[simp] theorem length_int32 (tag : Nat) (n : Int32) :
    (encodeFields (omitting 0 (.ofInt32 tag) n)).length = int32Size tag n := by
  rw [length_omitting, Field.ofInt32, length_encode_varint, int32Size]

@[simp] theorem length_int64 (tag : Nat) (n : Int64) :
    (encodeFields (omitting 0 (.ofInt64 tag) n)).length = int64Size tag n := by
  rw [length_omitting, Field.ofInt64, length_encode_varint, int64Size]

@[simp] theorem length_utf8 (s : String) : (utf8 s).length = s.utf8ByteSize := rfl

@[simp] theorem length_string (tag : Nat) (s : String) :
    (encodeFields (omitting "" (.ofString tag) s)).length = stringSize tag s := by
  rw [length_omitting, Field.ofString, length_encode_bytes, length_utf8, stringSize]

@[simp] theorem length_bytes (tag : Nat) (bs : Bytes) :
    (encodeFields (omitting [] (.ofBytes tag) bs)).length = bytesSize tag bs := by
  rw [length_omitting, Field.ofBytes, length_encode_bytes, bytesSize]

@[simp] theorem length_bool (tag : Nat) (b : Bool) :
    (encodeFields (omitting false (.ofBool tag) b)).length = if b then keySize tag + 1 else 0 := by
  rw [length_omitting, Field.ofBool, length_encode_varint]
  cases b <;> rfl

@[simp] theorem length_coordinate (tag : Nat) (x : Binary64) :
    (encodeFields (coordinate tag x)).length = coordinateSize tag x := by
  rw [coordinate, coordinateSize]
  split
  · rfl
  · rw [length_encodeFields_cons, Field.ofDouble, length_encode_fixed64]
    rfl

theorem length_flatMap {memberSize : γ → Nat} {write : γ → Bytes} {xs : List γ}
    (h : ∀ x ∈ xs, (write x).length = memberSize x) :
    (xs.flatMap write).length = totalSize memberSize xs := by
  induction xs with
  | nil => rfl
  | cons x xs ih =>
    obtain ⟨hx, hxs⟩ := List.forall_mem_cons.1 h
    rw [List.flatMap_cons, List.length_append, hx, ih hxs, totalSize, totalSize, List.foldr_cons]

theorem length_map {memberSize : γ → Nat} {field : γ → Field} {xs : List γ}
    (h : ∀ x ∈ xs, (field x).encode.length = memberSize x) :
    (encodeFields (xs.map field)).length = totalSize memberSize xs := by
  rw [encodeFields, List.flatMap_map]
  exact length_flatMap h

@[simp] theorem length_packed (tag : Nat) (ns : List Int32) :
    (encodeFields (packed tag ns)).length = packedSize tag ns := by
  have hnumbers : (ns.flatMap fun n => varint (word n.toInt)).length = totalSize _ ns :=
    length_flatMap fun n _ => length_varint (word n.toInt)
  cases ns with
  | nil => rfl
  | cons n ns =>
    rw [packed, packedSize, if_neg (by simp), if_neg (by simp), length_encodeFields_cons, length_encode_bytes,
      hnumbers]
    rfl

/-! Messages -/

/-- Messages that announce their size. -/
class Measured (α : Type) [Message α] [Sized α] : Prop where
  length_fields (a : α) : (encodeFields (Message.fields a)).length = size a

section

variable [Message α] [Sized α] [Measured α]

@[simp] theorem length_ofMessage (tag : Nat) (a : α) : (ofMessage tag a).encode.length = messageSize tag a := by
  rw [ofMessage, Field.ofFields, length_encode_bytes, Measured.length_fields, messageSize]

@[simp] theorem length_ofOptional (tag : Nat) (a : Option α) :
    (encodeFields (ofOptional tag a)).length = optionalSize tag a := by
  cases a with
  | none => rfl
  | some a =>
    exact (length_encodeFields_singleton _).trans (length_ofMessage tag a)

@[simp] theorem length_messages (tag : Nat) (as : List α) :
    (encodeFields (as.map (ofMessage tag))).length = totalSize (messageSize tag) as :=
  length_map fun a _ => length_ofMessage tag a

end

instance : Measured Timestamp where
  length_fields t := by simp [Message.fields, size]

instance : Measured GeoPoint where
  length_fields p := by simp [Message.fields, size]

/-! Values -/

theorem length_ofFields (tag : Nat) (fs : List Field) :
    (Field.ofFields tag fs).encode.length = delimitedSize tag (encodeFields fs).length :=
  length_encode_bytes tag _

theorem itemsSize_eq (vs : List Value) : itemsSize vs = totalSize (fun v => delimitedSize 1 (valueSize v)) vs := by
  induction vs with
  | nil => rfl
  | cons v vs ih =>
    rw [itemsSize, ih]
    rfl

def entrySize (e : String × Value) : Nat :=
  stringSize 1 e.1 +
    (match e.2 with
      | .unset => 0
      | v => delimitedSize 2 (valueSize v))

theorem entriesSize_eq (tag : Nat) (es : List (String × Value)) :
    entriesSize tag es = totalSize (fun e => delimitedSize tag (entrySize e)) es := by
  induction es with
  | nil => rfl
  | cons e es ih =>
    rw [entriesSize.eq_def]
    exact congrArg (delimitedSize tag (entrySize e) + ·) ih

theorem length_entryContent {e : String × Value} (h : (encodeFields (valueFields e.2)).length = valueSize e.2) :
    (encodeFields (entryContent e)).length = entrySize e := by
  obtain ⟨key, v⟩ := e
  rw [entryContent, length_encodeFields_append, length_string, entrySize]
  cases v with
  | unset => rfl
  | _ => rw [length_encodeFields_singleton, length_ofFields, h]

theorem length_entryFields {es : List (String × Value)}
    (h : ∀ e ∈ es, (encodeFields (valueFields e.2)).length = valueSize e.2) (tag : Nat) :
    (encodeFields (entryFields tag es)).length = entriesSize tag es := by
  rw [entryFields_eq, entriesSize_eq]
  exact length_map fun e he => by rw [length_ofFields, length_entryContent (h e he)]

theorem length_valueFields (v : Value) : (encodeFields (valueFields v)).length = valueSize v := by
  induction v using Value.membersInduction with
  | plain v harray hmap =>
    cases v with
    | unset => rfl
    | array vs => exact absurd rfl (harray vs)
    | map es => exact absurd rfl (hmap es)
    | bool b =>
      refine (length_encodeFields_singleton _).trans ((length_encode_varint 1 _).trans ?_)
      cases b <;> rfl
    | time t => exact (length_encodeFields_singleton _).trans (length_ofMessage 10 t)
    | geo p => exact (length_encodeFields_singleton _).trans (length_ofMessage 8 p)
    | double x => exact (length_encodeFields_singleton _).trans (length_encode_fixed64 3 _)
    | null n => exact (length_encodeFields_singleton _).trans (length_encode_varint 11 _)
    | int n => exact (length_encodeFields_singleton _).trans (length_encode_varint 2 _)
    | str s => exact (length_encodeFields_singleton _).trans (length_encode_bytes 17 _)
    | ref s => exact (length_encodeFields_singleton _).trans (length_encode_bytes 5 _)
    | bytes bs => exact (length_encodeFields_singleton _).trans (length_encode_bytes 18 bs)
  | array vs ih =>
    have hitems : (encodeFields (itemFields vs)).length = itemsSize vs := by
      rw [itemFields_eq, itemsSize_eq]
      exact length_map fun v hv => by rw [length_ofFields, ih v hv]
    rw [valueFields, length_encodeFields_singleton, length_ofFields, hitems, valueSize]
  | map es ih => rw [valueFields, length_encodeFields_singleton, length_ofFields, length_entryFields ih, valueSize]

/-! Messages of the stream -/

instance : Measured Document where
  length_fields d := by
    have hfields : (encodeFields (entryFields 2 d.fields)).length = entriesSize 2 d.fields :=
      length_entryFields (fun e _ => length_valueFields e.2) 2
    simp [Message.fields, size, hfields, Nat.add_assoc]

instance : Measured Detail where
  length_fields d := by simp [Message.fields, size]

instance : Measured Status where
  length_fields s := by simp [Message.fields, size, Nat.add_assoc]

instance : Measured TargetChange where
  length_fields c := by simp [Message.fields, size, Nat.add_assoc]

instance : Measured DocumentChange where
  length_fields c := by simp [Message.fields, size, Nat.add_assoc]

instance : Measured DocumentDelete where
  length_fields d := by simp [Message.fields, size, Nat.add_assoc]

instance : Measured DocumentRemove where
  length_fields d := by simp [Message.fields, size, Nat.add_assoc]

instance : Measured ExistenceFilter where
  length_fields e := by simp [Message.fields, size]

instance : Measured ListenResponse where
  length_fields r := by cases r <;> simp [Message.fields, size]

instance : Measured QueryTarget where
  length_fields q := by cases h : q.structured <;> simp [Message.fields, size, Field.ofBytes, h]

instance : Measured DocumentsTarget where
  length_fields _ := length_map fun s _ => length_encode_bytes 2 (utf8 s)

@[simp] theorem length_kindFields (kind : TargetKind) :
    (encodeFields (Target.kindFields kind)).length = targetKindSize kind := by
  cases kind <;> simp [Target.kindFields, targetKindSize]

@[simp] theorem length_resumeFields (resume : ResumePoint) :
    (encodeFields (Target.resumeFields resume)).length = resumeSize resume := by
  cases resume <;> simp [Target.resumeFields, resumeSize, Field.ofBytes]

instance : Measured Target where
  length_fields t := by simp [Message.fields, size, Nat.add_assoc]

instance : Measured Label where
  length_fields l := by simp [Message.fields, size]

@[simp] theorem length_requestChangeFields (change : RequestChange) :
    (encodeFields (requestChangeFields change)).length = requestChangeSize change := by
  cases change <;> simp [requestChangeFields, requestChangeSize, Field.ofInt32]

instance : Measured ListenRequest where
  length_fields r := by
    have hlabels : (encodeFields (r.labels.map fun (key, value) => ofMessage 4 (Label.mk key value))).length =
        totalSize (fun (key, value) => messageSize 4 (Label.mk key value)) r.labels :=
      length_map fun _ _ => length_ofMessage 4 _
    simp only [Message.fields, size, length_encodeFields_append, length_string, length_requestChangeFields,
      hlabels]

end LiveQuery.Wire
