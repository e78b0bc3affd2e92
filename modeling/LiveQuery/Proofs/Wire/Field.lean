import Mathlib.Algebra.Group.Nat.Defs
import LiveQuery.Wire.Size

namespace LiveQuery.Wire

variable {n limit tag wireType count depth fuel : Nat} {bs rest : Bytes} {delimited : Nat → Bool}
  {f : Field} {fs : List Field}

/-! Numbers -/

theorem toNat_ofNat_of_lt (h : n < 256) : (UInt8.ofNat n).toNat = n := UInt8.toNat_ofNat_of_lt' h

theorem readGroups?_varint_of_lt (h : n < 128) (limit : Nat) (rest : Bytes) :
    readGroups? (limit + 1) (varint n ++ rest) = some (n, rest) := by
  have hbyte : UInt8.ofNat n < 128 := by
    rw [UInt8.lt_iff_toNat_lt, toNat_ofNat_of_lt (by omega)]
    exact h
  rw [varint, if_pos h, List.cons_append, List.nil_append, readGroups?, if_pos hbyte,
    toNat_ofNat_of_lt (by omega)]

theorem readGroups?_varint (h : n < 128 ^ (limit + 1)) (rest : Bytes) :
    readGroups? (limit + 1) (varint n ++ rest) = some (n, rest) := by
  induction limit generalizing n with
  | zero => exact readGroups?_varint_of_lt h 0 rest
  | succ limit ih =>
    by_cases hn : n < 128
    · exact readGroups?_varint_of_lt hn _ rest
    · have hval : (UInt8.ofNat (n % 128 + 128)).toNat = n % 128 + 128 := toNat_ofNat_of_lt (by omega)
      have hbyte : ¬ UInt8.ofNat (n % 128 + 128) < 128 := by
        rw [UInt8.lt_iff_toNat_lt, hval]
        exact Nat.not_lt.2 (Nat.le_add_left 128 _)
      have hdiv : n / 128 < 128 ^ (limit + 1) := by
        rw [Nat.div_lt_iff_lt_mul (by decide), ← Nat.pow_succ]
        exact h
      rw [varint, if_neg hn, List.cons_append, readGroups?, if_neg hbyte, ih hdiv, hval, Option.map_some]
      simp only [Option.some.injEq, Prod.mk.injEq, and_true]
      omega

theorem readVarint?_varint (h : n < UInt64.size) (rest : Bytes) :
    readVarint? (varint n ++ rest) = some (n, rest) := by
  have hlimit : n < 128 ^ 10 := Nat.lt_trans h (by decide)
  rw [readVarint?, readGroups?_varint hlimit]
  simp [h]

theorem log2_lt_of_lt {k : Nat} (h : n < 2 ^ k) (hk : 0 < k) : n.log2 < k := by
  by_cases hn : n = 0
  · rw [hn, Nat.log2_zero]
    exact hk
  · exact (Nat.log2_lt hn).2 h

theorem log2_div_two_pow {k : Nat} (h : n / 2 ^ k ≠ 0) : (n / 2 ^ k).log2 + k = n.log2 := by
  obtain ⟨hle, hlt⟩ := (Nat.log2_eq_iff h).1 rfl
  have hpos : 0 < 2 ^ k := Nat.two_pow_pos k
  have hn : n ≠ 0 := by
    rintro rfl
    exact h (Nat.zero_div _)
  refine ((Nat.log2_eq_iff hn).2 ⟨?_, ?_⟩).symm
  · rw [Nat.pow_add]
    exact (Nat.le_div_iff_mul_le hpos).1 hle
  · rw [Nat.add_right_comm, Nat.pow_add]
    exact (Nat.div_lt_iff_lt_mul hpos).1 hlt

theorem length_varint (n : Nat) : (varint n).length = varintSize n := by
  induction n using Nat.strongRecOn with
  | ind n ih =>
    rw [varint]
    split
    · next hn =>
      have hlog : n.log2 < 7 := log2_lt_of_lt hn (by decide)
      rw [varintSize, List.length_singleton]
      omega
    · next hn =>
      have hlog : (n / 128).log2 + 7 = n.log2 := log2_div_two_pow (k := 7) (show n / 128 ≠ 0 by omega)
      rw [List.length_cons, ih (n / 128) (by omega), varintSize, varintSize]
      omega

theorem length_varint_pos (n : Nat) : 0 < (varint n).length := by
  rw [length_varint, varintSize]
  omega

theorem ofLittleEndian_littleEndian (h : n < 256 ^ count) : ofLittleEndian (littleEndian count n) = n := by
  induction count generalizing n with
  | zero =>
    rw [littleEndian, ofLittleEndian]
    omega
  | succ count ih =>
    have hdiv : n / 256 < 256 ^ count := by
      rw [Nat.div_lt_iff_lt_mul (by decide), ← Nat.pow_succ]
      exact h
    rw [littleEndian, ofLittleEndian, ih hdiv, toNat_ofNat_of_lt (Nat.mod_lt _ (by decide))]
    omega

theorem length_littleEndian (count n : Nat) : (littleEndian count n).length = count := by
  induction count generalizing n with
  | zero => rfl
  | succ count ih => rw [littleEndian, List.length_cons, ih]

/-! Fields -/

/-- A payload that reads back as it was written: where only bytes are read it is bytes, and there is no
group. -/
def Payload.Sound (delimited : Bool) : Payload → Prop
  | varint n | fixed64 n => delimited = false ∧ n < UInt64.size
  | bytes _ => True
  | group => False
  | fixed32 n => delimited = false ∧ n < UInt32.size

/-- The numbers that fields have. -/
def IsTag (tag : Nat) : Prop := 1 ≤ tag ∧ tag < 0x20000000

instance : Decidable (IsTag tag) := inferInstanceAs (Decidable (_ ∧ _))

def Field.Sound (delimited : Nat → Bool) (f : Field) : Prop :=
  IsTag f.tag ∧ f.payload.Sound (delimited f.tag)

/-- A length fits its varint. -/
def Short (fs : List Field) : Prop := (encodeFields fs).length < UInt64.size

theorem readKey?_key (htag : IsTag tag) (hwire : wireType ≤ 5) (rest : Bytes) :
    readKey? (key tag wireType ++ rest) = some (tag, wireType, rest) := by
  obtain ⟨hpos, hlt⟩ := htag
  have hsize : 8 * tag + wireType < UInt64.size := by
    rw [UInt64.size]
    omega
  have hkey : 8 * tag + wireType < UInt32.size ∧ 8 ≤ 8 * tag + wireType ∧ (8 * tag + wireType) % 8 ≤ 5 := by
    rw [UInt32.size]
    omega
  simp only [readKey?, key, readVarint?_varint hsize, Option.bind_eq_bind, Option.bind_some, if_pos hkey,
    Option.some.injEq, Prod.mk.injEq, and_true]
  omega

theorem take?_append (bs rest : Bytes) : take? bs.length (bs ++ rest) = some (bs, rest) := by
  rw [take?, if_pos (by simp), List.take_left, List.drop_left]

theorem readDelimited?_append (h : bs.length < UInt64.size) (rest : Bytes) :
    readDelimited? (varint bs.length ++ bs ++ rest) = some (bs, rest) := by
  simp only [readDelimited?, List.append_assoc, readVarint?_varint h, Option.bind_eq_bind, Option.bind_some,
    take?_append]

theorem readField?_encode (h : f.Sound delimited) (hshort : f.encode.length < UInt64.size) (rest : Bytes) :
    readField? delimited depth (f.encode ++ rest) = some (f, rest) := by
  obtain ⟨tag, payload⟩ := f
  obtain ⟨htag, hpayload⟩ := h
  cases payload with
  | varint n =>
    obtain ⟨hmap, hn⟩ : delimited tag = false ∧ n < UInt64.size := hpayload
    simp [Field.encode, readField?, readKey?_key htag, hmap, readVarint?_varint hn]
  | fixed64 n =>
    obtain ⟨hmap, hn⟩ : delimited tag = false ∧ n < UInt64.size := hpayload
    have htake := take?_append (littleEndian 8 n) rest
    rw [length_littleEndian] at htake
    have hvalue : ofLittleEndian (littleEndian 8 n) = n := ofLittleEndian_littleEndian (show n < 256 ^ 8 from hn)
    simp [Field.encode, readField?, readKey?_key htag, hmap, htake, hvalue]
  | bytes bs =>
    have hlength : bs.length < UInt64.size := by
      simp only [Field.encode, List.length_append] at hshort
      omega
    have hread := readDelimited?_append hlength rest
    rw [List.append_assoc] at hread
    simp [Field.encode, readField?, readKey?_key htag, hread]
  | group => cases hpayload
  | fixed32 n =>
    obtain ⟨hmap, hn⟩ : delimited tag = false ∧ n < UInt32.size := hpayload
    have htake := take?_append (littleEndian 4 n) rest
    rw [length_littleEndian] at htake
    have hvalue : ofLittleEndian (littleEndian 4 n) = n := ofLittleEndian_littleEndian (show n < 256 ^ 4 from hn)
    simp [Field.encode, readField?, readKey?_key htag, hmap, htake, hvalue]

theorem length_encode_pos (f : Field) : 0 < f.encode.length := by
  have hkey (wireType : Nat) (rest : Bytes) : 0 < (key f.tag wireType ++ rest).length := by
    rw [List.length_append, key]
    have hpos := length_varint_pos (8 * f.tag + wireType)
    omega
  unfold Field.encode
  cases f.payload with
  | bytes bs =>
    change 0 < (key f.tag 2 ++ varint bs.length ++ bs).length
    rw [List.append_assoc]
    exact hkey 2 _
  | varint | fixed64 | group | fixed32 => exact hkey _ _

theorem encodeFields_cons (f : Field) (fs : List Field) :
    encodeFields (f :: fs) = f.encode ++ encodeFields fs := List.flatMap_cons

theorem encodeFields_append (fs gs : List Field) :
    encodeFields (fs ++ gs) = encodeFields fs ++ encodeFields gs := List.flatMap_append

theorem readFields?_encodeFields (h : ∀ f ∈ fs, f.Sound delimited) (hshort : Short fs)
    (hfuel : (encodeFields fs).length ≤ fuel) :
    readFields? delimited depth fuel (encodeFields fs) = some fs := by
  induction fs generalizing fuel with
  | nil => cases fuel <;> rfl
  | cons f fs ih =>
    rw [Short, encodeFields_cons, List.length_append] at hshort
    rw [encodeFields_cons, List.length_append] at hfuel
    have hpos := length_encode_pos f
    obtain ⟨fuel, rfl⟩ : ∃ k, fuel = k + 1 := ⟨fuel - 1, by omega⟩
    have hfirst : readField? delimited depth (f.encode ++ encodeFields fs) = some (f, encodeFields fs) :=
      readField?_encode (h f List.mem_cons_self) (by omega) _
    have hrest := ih (fun g hg => h g (List.mem_cons_of_mem _ hg)) (show _ < _ by omega)
      (show _ ≤ fuel by omega)
    rw [encodeFields_cons, readFields?]
    · simp only [hfirst, hrest, Option.bind_eq_bind, Option.bind_some, Option.pure_def]
    · exact List.append_ne_nil_of_left_ne_nil (List.ne_nil_of_length_pos hpos) _

/-- What was written reads back as it was. -/
theorem decodeFields?_encodeFields (h : ∀ f ∈ fs, f.Sound delimited) (hshort : Short fs) :
    decodeFields? delimited depth (encodeFields fs) = some fs :=
  readFields?_encodeFields h hshort (Nat.le_refl _)

/-! Payloads -/

theorem word_lt (n : Int) : word n < UInt64.size := by
  rw [word, UInt64.size]
  omega

theorem int64?_word (n : Int64) : (Payload.varint (word n.toInt)).int64? = some n := by
  have hle := n.le_toInt
  have hlt := n.toInt_lt
  rw [Payload.int64?, Option.some.injEq, ← Int64.toInt_inj, Int64.toInt_ofNat', word, UInt64.size,
    Int64.size, Int.bmod]
  omega

theorem int32?_word (n : Int32) : (Payload.varint (word n.toInt)).int32? = some n := by
  have hle := n.le_toInt
  have hlt := n.toInt_lt
  rw [Payload.int32?, Option.some.injEq, ← Int32.toInt_inj, Int32.toInt_ofNat', word, UInt64.size,
    Int32.size, Int.bmod]
  omega

theorem bool?_toNat (b : Bool) : (Payload.varint b.toNat).bool? = some b := by
  cases b <;> rfl

theorem double?_bits (x : Binary64) : (Payload.fixed64 x.bits.toNat).double? = some x := by
  rw [Payload.double?, UInt64.ofNat_toNat]

theorem string?_utf8 (s : String) : (Payload.bytes (utf8 s)).string? = some s := by
  have hbytes : (⟨(utf8 s).toArray⟩ : ByteArray) = s.toByteArray := rfl
  rw [Payload.string?, hbytes, String.fromUTF8?, dif_pos s.isValidUTF8]
  rfl

theorem varints?_flatMap {ns : List Nat} (h : ∀ n ∈ ns, n < UInt64.size)
    (hfuel : (ns.flatMap varint).length ≤ fuel) : Payload.varints? fuel (ns.flatMap varint) = some ns := by
  induction ns generalizing fuel with
  | nil => cases fuel <;> rfl
  | cons n ns ih =>
    have hpos := length_varint_pos n
    rw [List.flatMap_cons, List.length_append] at hfuel
    obtain ⟨fuel, rfl⟩ : ∃ k, fuel = k + 1 := ⟨fuel - 1, by omega⟩
    have hrest := ih (fun m hm => h m (List.mem_cons_of_mem _ hm)) (show _ ≤ fuel by omega)
    rw [List.flatMap_cons, Payload.varints?]
    · simp only [readVarint?_varint (h n List.mem_cons_self), hrest, Option.bind_eq_bind, Option.bind_some,
        Option.pure_def]
    · exact List.append_ne_nil_of_left_ne_nil (List.ne_nil_of_length_pos hpos) _

theorem int32s?_packed (ns : List Int32) :
    (Payload.bytes (ns.flatMap fun n => varint (word n.toInt))).int32s? = some ns := by
  have hwords : ns.flatMap (fun n => varint (word n.toInt)) = (ns.map fun n => word n.toInt).flatMap varint :=
    (List.flatMap_map _ _ _).symm
  have hread : Int32.ofNat ∘ (fun n : Int32 => word n.toInt) = id :=
    funext fun n => Option.some.inj (int32?_word n)
  have hlt : ∀ w ∈ ns.map (fun n => word n.toInt), w < UInt64.size := by
    simp only [List.mem_map, forall_exists_index, and_imp, forall_apply_eq_imp_iff₂]
    exact fun n _ => word_lt n.toInt
  rw [Payload.int32s?, hwords, varints?_flatMap hlt (Nat.le_refl _), Option.map_some, List.map_map, hread,
    List.map_id]

end LiveQuery.Wire
