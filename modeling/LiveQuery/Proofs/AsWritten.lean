import Mathlib.Data.List.TakeWhile
import LiveQuery.Proofs.Rounding
import LiveQuery.Proofs.TomlInteger
import LiveQuery.Settings.Validation

namespace LiveQuery

namespace Text

variable {v : String} {n : Int} {c : Char} {cs : List Char}

theorem fitsInt64_iff : fitsInt64 n = true ↔ -0x8000000000000000 ≤ n ∧ n < 0x8000000000000000 := by
  rw [fitsInt64, Bool.and_eq_true, decide_eq_true_eq, decide_eq_true_eq]

/-- An integer is written as an optional sign and digits. -/
theorem readInt?_eq_some (h : readInt? v = some n) : ∃ cs, cs ≠ [] ∧ (∀ c ∈ cs, isDigit c = true) ∧
    (v.toList = '-' :: cs ∧ n = -(ofDigits cs : Int) ∨
      (v.toList = '+' :: cs ∨ v.toList = cs) ∧ n = ofDigits cs) := by
  have hunsigned {cs : List Char} {m : Nat}
      (h : (if !cs.isEmpty && cs.all isDigit then some (ofDigits cs) else none) = some m) :
      cs ≠ [] ∧ (∀ c ∈ cs, isDigit c = true) ∧ m = ofDigits cs := by
    obtain ⟨hdigits, hm⟩ := Option.ite_none_right_eq_some.1 h
    rw [Bool.and_eq_true, List.all_eq_true] at hdigits
    exact ⟨by simpa using hdigits.1, hdigits.2, (Option.some.inj hm).symm⟩
  unfold readInt? at h
  dsimp only at h
  split at h
  · next cs hv =>
    obtain ⟨_, hcast, rfl⟩ := Option.map_eq_some_iff.1 h
    obtain ⟨m, hm, hcast⟩ := Option.bind_eq_some_iff.1 hcast
    obtain ⟨hne, hdigits, rfl⟩ := hunsigned hm
    obtain rfl := Option.some.inj hcast
    exact ⟨cs, hne, hdigits, .inl ⟨hv, rfl⟩⟩
  · next cs hv =>
    obtain ⟨m, hm, rfl⟩ := Option.map_eq_some_iff.1 h
    obtain ⟨hne, hdigits, rfl⟩ := hunsigned hm
    exact ⟨cs, hne, hdigits, .inr ⟨.inl hv, rfl⟩⟩
  · obtain ⟨m, hm, rfl⟩ := Option.map_eq_some_iff.1 h
    obtain ⟨hne, hdigits, rfl⟩ := hunsigned hm
    exact ⟨_, hne, hdigits, .inr ⟨.inr rfl, rfl⟩⟩

theorem lowerChar_of_isDigit (h : isDigit c = true) : lowerChar c = c := by
  have hle : c.val.toNat ≤ 57 := by
    rw [isDigit, Bool.and_eq_true, decide_eq_true_eq, decide_eq_true_eq] at h
    exact h.2
  have hkelvin : c ≠ '\u212a' := by
    rintro rfl
    exact absurd hle (by decide)
  refine lowerChar_eq_self hkelvin ?_
  rintro ⟨hge, -⟩
  have hge : 65 ≤ c.val.toNat := hge
  omega

theorem lower_of_readInt? (h : readInt? v = some n) : lower v = v := by
  obtain ⟨cs, -, hdigits, hcases⟩ := readInt?_eq_some h
  refine lower_eq_self fun c hc => ?_
  have hmem : c = '-' ∨ c = '+' ∨ c ∈ cs := by
    rcases hcases with ⟨hv, -⟩ | ⟨hv | hv, -⟩
    · exact (List.mem_cons.1 (hv ▸ hc)).imp_right .inr
    · exact .inr (List.mem_cons.1 (hv ▸ hc))
    · exact .inr (.inr (hv ▸ hc))
  rcases hmem with rfl | rfl | hmem
  · decide
  · decide
  · exact lowerChar_of_isDigit (hdigits c hmem)

theorem readInt?_of_readNat? {m : Nat} (h : readNat? v = some m) : readInt? v = some (m : Int) := by
  unfold readNat? at h
  dsimp only at h
  unfold readInt?
  dsimp only
  split
  · next cs hv =>
    rw [hv] at h
    simp [isDigit] at h
  · next cs hv =>
    rw [hv] at h
    simp only at h
    rw [h]
    rfl
  · next hminus hplus =>
    split at h
    · next cs hv => exact absurd hv (hplus cs)
    · rw [h]
      rfl

end Text

namespace Binary64

variable {v : String} {n : Int} {cs : List Char}

theorem readDecimal?_of_digits (hne : cs ≠ []) (hdigits : ∀ c ∈ cs, Text.isDigit c = true) :
    readDecimal? cs = some ⟨Text.ofDigits cs, 0⟩ := by
  have htake : cs.takeWhile Text.isDigit = cs := List.takeWhile_eq_self_iff.2 hdigits
  have hdrop : cs.dropWhile Text.isDigit = [] := List.dropWhile_eq_nil_iff.2 hdigits
  simp [readDecimal?, htake, hdrop, hne]

theorem ofList_ne_of_digits {word : String} (hdigits : ∀ c ∈ cs, Text.isDigit c = true)
    (hword : word.toList.all Text.isDigit = false) : String.ofList cs ≠ word := by
  rintro rfl
  rw [String.toList_ofList, List.all_eq_false] at hword
  obtain ⟨c, hc, hnot⟩ := hword
  exact hnot (hdigits c hc)

/-- Whatever reads as an integer reads as a decimal number too, whatever its size. -/
theorem ofText?_of_readInt? (h : Text.readInt? v = some n) : ∃ negative : Bool,
    (0 < n → negative = false) ∧ (n < 0 → negative = true) ∧
      ofText? v = some (ofDecimal negative ⟨n.natAbs, 0⟩) := by
  obtain ⟨cs, hne, hdigits, hcases⟩ := Text.readInt?_eq_some h
  have hlower : Text.lower (String.ofList cs) = String.ofList cs :=
    Text.lower_eq_self fun c hc => Text.lowerChar_of_isDigit (hdigits c (by simpa using hc))
  have hinf : String.ofList cs ≠ "inf" := ofList_ne_of_digits hdigits (by decide)
  have hinfinity : String.ofList cs ≠ "infinity" := ofList_ne_of_digits hdigits (by decide)
  have hnan : String.ofList cs ≠ "nan" := ofList_ne_of_digits hdigits (by decide)
  have hread := readDecimal?_of_digits hne hdigits
  rcases hcases with ⟨hv, rfl⟩ | ⟨hv | hv, rfl⟩
  · exact ⟨true, by omega, fun _ => rfl, by simp [ofText?, hv, hlower, hinf, hinfinity, hnan, hread]⟩
  · exact ⟨false, fun _ => rfl, by omega, by simp [ofText?, hv, hlower, hinf, hinfinity, hnan, hread]⟩
  · refine ⟨false, fun _ => rfl, by omega, ?_⟩
    -- the first character is a digit, so it is no sign
    have hhead {c : Char} {rest : List Char} (hc : Text.isDigit c = false) : cs ≠ c :: rest := by
      rintro rfl
      exact absurd (hdigits c List.mem_cons_self) (by simp [hc])
    unfold ofText?
    rw [hv]
    split
    · next heq =>
      split at heq
      · exact absurd rfl (hhead (by decide))
      · exact absurd rfl (hhead (by decide))
      · obtain ⟨rfl, rfl⟩ := Prod.mk.inj heq
        simp [hlower, hinf, hinfinity, hnan, hread]

end Binary64

section Slash

theorem slash_not_mem_toDigits (m : Nat) : '/' ∉ Nat.toDigits 10 m :=
  fun h => absurd (Text.isDigit_of_mem_toDigits h) (by decide)

theorem slash_not_mem_toString (n : Int) : '/' ∉ (toString n).toList := by
  rw [Text.toList_toString, List.mem_append, not_or]
  refine ⟨?_, slash_not_mem_toDigits _⟩
  split
  · decide
  · exact List.not_mem_nil

theorem Decimal.slash_not_mem_text (d : Decimal) : '/' ∉ d.text.toList := by
  have hzeros (k : Nat) : '/' ∉ List.replicate k '0' := fun h =>
    absurd (List.eq_of_mem_replicate h) (by decide)
  unfold text
  split
  · have hdigits := slash_not_mem_toString d.digits
    rw [String.toList_append, String.toList_ofList, List.mem_append, not_or]
    exact ⟨hdigits, hzeros _⟩
  · rw [String.toList_ofList, List.mem_append, List.mem_cons, not_or, not_or]
    have hdigits : '/' ∉ List.replicate ((-d.exponent).toNat + 1 - (Nat.toDigits 10 d.digits).length) '0' ++
        Nat.toDigits 10 d.digits := by
      rw [List.mem_append, not_or]
      exact ⟨hzeros _, slash_not_mem_toDigits _⟩
    exact ⟨fun h => hdigits (List.mem_of_mem_take h), by decide, fun h => hdigits (List.mem_of_mem_drop h)⟩

theorem Binary64.slash_not_mem_text (x : Binary64) : '/' ∉ x.text.toList := by
  have hbody : '/' ∉
      (if x.isInfinite then "inf" else if x.isZero then "0" else x.shortest.text).toList := by
    split
    · decide
    split
    · decide
    · exact Decimal.slash_not_mem_text _
  unfold text
  dsimp only
  generalize (if x.isInfinite then "inf" else if x.isZero then "0" else x.shortest.text) = body at hbody
  split
  · decide
  split
  · rw [String.toList_append, List.mem_append, not_or]
    exact ⟨by decide, hbody⟩
  · exact hbody

theorem slash_mem_of_isDatabaseName {s : String} (h : isDatabaseName s = true) : '/' ∈ s.toList := by
  by_contra hslash
  rw [isDatabaseName, Text.splitAt_of_not_mem hslash] at h
  cases h

theorem slash_mem_of_isPrefixOf {scheme s : List Char} (h : scheme.isPrefixOf s = true)
    (hscheme : '/' ∈ scheme) : '/' ∈ s :=
  (List.isPrefixOf_iff_prefix.1 h).subset hscheme

end Slash

namespace Settings

variable {s : Settings}

/-- Settings without a complaint have slashes in their database and their endpoint. -/
theorem slash_mem_of_complaint? (h : s.complaint? = none) :
    '/' ∈ s.listen.database.toList ∧ '/' ∈ s.network.endpoint.toList := by
  obtain ⟨hlisten, -, hnetwork⟩ : s.listen.complaint? = none ∧ s.backoff.complaint? = none ∧
      s.network.complaint? = none := by simpa [complaint?] using h
  constructor
  · have hname : isDatabaseName s.listen.database = true := by
      by_contra hname
      rw [ListenSettings.complaint?, if_pos (by simpa using hname)] at hlisten
      cases hlisten
    exact slash_mem_of_isDatabaseName hname
  · have hscheme : ("http://".toList.isPrefixOf s.network.endpoint.toList ||
        "https://".toList.isPrefixOf s.network.endpoint.toList) = true := by
      by_contra hscheme
      rw [NetworkSettings.complaint?, if_pos (by rwa [Bool.not_eq_true', ← Bool.not_eq_true])] at hnetwork
      cases hnetwork
    rcases Bool.or_eq_true_iff.1 hscheme with hscheme | hscheme
    · exact slash_mem_of_isPrefixOf hscheme (by decide)
    · exact slash_mem_of_isPrefixOf hscheme (by decide)

namespace Environment

variable {v t : String} {n : Int} {k : UInt64}

/-- Whether a text is `true` or `false`, in any case. -/
def isWord (v : String) : Bool := Text.lower v = "true" || Text.lower v = "false"

theorem isWord_iff : isWord v = true ↔ Text.lower v = "true" ∨ Text.lower v = "false" := by
  rw [isWord, Bool.or_eq_true, decide_eq_true_eq, decide_eq_true_eq]

theorem isWord_of_readInt? (h : Text.readInt? v = some n) : isWord v = false := by
  rw [← Bool.not_eq_true, isWord_iff, Text.lower_of_readInt? h]
  rintro (rfl | rfl)
  · cases h.symm.trans (show Text.readInt? "true" = none by decide)
  · cases h.symm.trans (show Text.readInt? "false" = none by decide)

theorem value_of_not_isWord (h : isWord v = false) : value v =
    ((Text.readInt? v).bind Tree.ofInt? <|> (Binary64.ofText? v).map Tree.float).getD (.text v) := by
  rw [← Bool.not_eq_true, isWord_iff, not_or] at h
  rw [value, if_neg h.1, if_neg h.2]

theorem value_of_fits (hread : Text.readInt? v = some n) (hfits : Text.fitsInt64 n = true) :
    value v = .int (.ofInt n) := by
  rw [value_of_not_isWord (isWord_of_readInt? hread), hread, Option.bind_some, Tree.ofInt?, if_pos hfits]
  rfl

theorem value_of_not_fits (hword : isWord v = false)
    (hfits : ∀ n, Text.readInt? v = some n → Text.fitsInt64 n = false) {x : Binary64}
    (hread : Binary64.ofText? v = some x) : value v = .float x := by
  have hnone : (Text.readInt? v).bind Tree.ofInt? = none := by
    rw [Option.bind_eq_none_iff]
    intro n hn
    rw [Tree.ofInt?, if_neg (by simp [hfits n hn])]
  rw [value_of_not_isWord hword, hnone, hread]
  rfl

theorem readInt?_eq_none (hread : Binary64.ofText? v = none) : Text.readInt? v = none := by
  rw [Option.eq_none_iff_forall_ne_some]
  intro n hn
  obtain ⟨negative, -, -, hx⟩ := Binary64.ofText?_of_readInt? hn
  rw [hread] at hx
  cases hx

theorem value_of_plain (hword : isWord v = false) (hread : Binary64.ofText? v = none) :
    value v = .text v := by
  rw [value_of_not_isWord hword, readInt?_eq_none hread, hread]
  rfl

/-- The text that a variable gives a text field. One that a source takes for a Boolean or a number comes out
as that is shown. -/
inductive ComesOut (v : String) : String → Prop
  | word : isWord v = true → ComesOut v (Text.lower v)
  | integer {n : Int} : Text.readInt? v = some n → Text.fitsInt64 n = true → ComesOut v (toString n)
  | number {x : Binary64} : isWord v = false →
      (∀ n, Text.readInt? v = some n → Text.fitsInt64 n = false) →
      Binary64.ofText? v = some x → ComesOut v x.text
  | plain : isWord v = false → Binary64.ofText? v = none → ComesOut v v

theorem toInt_ofInt (h : Text.fitsInt64 n = true) : (Int64.ofInt n).toInt = n :=
  Int64.toInt_ofInt_of_le (Text.fitsInt64_iff.1 h).1 (Text.fitsInt64_iff.1 h).2

theorem exists_string?_value (v : String) : ∃ t, (value v).string? = some t ∧ ComesOut v t := by
  cases hword : isWord v with
  | true =>
    refine ⟨Text.lower v, ?_, .word hword⟩
    rcases isWord_iff.1 hword with hword | hword
    · rw [value, if_pos hword, hword]
      rfl
    · rw [value, if_neg (by rw [hword]; decide), if_pos hword, hword]
      rfl
  | false =>
    by_cases hfits : ∃ n, Text.readInt? v = some n ∧ Text.fitsInt64 n = true
    · obtain ⟨n, hn, hfits⟩ := hfits
      exact ⟨toString n, by rw [value_of_fits hn hfits, Tree.string?, toInt_ofInt hfits], .integer hn hfits⟩
    have hfits (n : Int) (hn : Text.readInt? v = some n) : Text.fitsInt64 n = false := by
      rw [← Bool.not_eq_true]
      exact fun h => hfits ⟨n, hn, h⟩
    cases hread : Binary64.ofText? v with
    | some x => exact ⟨x.text, by rw [value_of_not_fits hword hfits hread]; rfl, .number hword hfits hread⟩
    | none => exact ⟨v, by rw [value_of_plain hword hread]; rfl, .plain hword hread⟩

/-- Whether a text in a variable comes out as it stands. -/
structure KeepsText (v : String) : Prop where
  word : isWord v = true → Text.lower v = v
  integer : ∀ n, Text.readInt? v = some n → Text.fitsInt64 n = true → toString n = v
  number : isWord v = false → (∀ n, Text.readInt? v = some n → Text.fitsInt64 n = false) →
    ∀ x, Binary64.ofText? v = some x → x.text = v

theorem ComesOut.eq_iff (h : ComesOut v t) : t = v ↔ KeepsText v := by
  cases h with
  | word hword =>
    refine ⟨fun heq => ⟨fun _ => heq, fun n hn _ => ?_, fun hnot => ?_⟩, fun hkeeps => hkeeps.word hword⟩
    · exact absurd (isWord_of_readInt? hn) (by simp [hword])
    · exact absurd hnot (by simp [hword])
  | integer hn hfits =>
    refine ⟨fun heq => ⟨fun hword => ?_, fun m hm _ => ?_, fun _ hnot => ?_⟩,
      fun hkeeps => hkeeps.integer _ hn hfits⟩
    · exact absurd (isWord_of_readInt? hn) (by simp [hword])
    · rw [Option.some.inj (hm.symm.trans hn), heq]
    · exact absurd (hnot _ hn) (by simp [hfits])
  | number hword hnot hx =>
    refine ⟨fun heq => ⟨fun h => ?_, fun n hn hfits => ?_, fun _ _ y hy => ?_⟩,
      fun hkeeps => hkeeps.number hword hnot _ hx⟩
    · exact absurd h (by simp [hword])
    · exact absurd (hnot n hn) (by simp [hfits])
    · rw [Option.some.inj (hy.symm.trans hx), heq]
  | plain hword hplain =>
    refine ⟨fun _ => ⟨fun h => ?_, fun n hn _ => ?_, fun _ _ x hx => ?_⟩, fun _ => rfl⟩
    · exact absurd h (by simp [hword])
    · rw [readInt?_eq_none hplain] at hn
      cases hn
    · rw [hplain] at hx
      cases hx

/-- A text with a slash can only come from the same text. -/
theorem ComesOut.eq_of_slash (h : ComesOut v t) (hslash : '/' ∈ t.toList) : t = v := by
  cases h with
  | word hword =>
    rcases isWord_iff.1 hword with hword | hword
    · exact absurd (hword ▸ hslash) (by decide)
    · exact absurd (hword ▸ hslash) (by decide)
  | integer => exact absurd hslash (slash_not_mem_toString _)
  | number => exact absurd hslash (Binary64.slash_not_mem_text _)
  | plain => rfl

/-- What a number in a variable counts as in an integer field. Beyond the signed 64-bit integers it passes
through a double. -/
structure CountsAs (n : Int) (k : Nat) : Prop where
  exact : Text.fitsInt64 n = true → (k : Int) = n
  rounded : 0x8000000000000000 ≤ n → n < UInt64.size →
    k = min (roundHalfEven n.toNat 2048 * 2048) (UInt64.size - 1)
  saturated : UInt64.size ≤ n → k = UInt64.size - 1
  negative : n < -0x8000000000000000 → k = 0

/-- Whether a number in a variable counts as itself: outside the signed 64-bit integers only if it has a
double, or is the largest that an integer field holds. -/
def KeepsNumber (n : Int) : Prop :=
  Text.fitsInt64 n = true ∨
    0x8000000000000000 ≤ n ∧ n < UInt64.size ∧ (n % 2048 = 0 ∨ n = UInt64.size - 1)

theorem CountsAs.eq_iff {k : Nat} (h : CountsAs n k) : (k : Int) = n ↔ KeepsNumber n := by
  have hsize : (UInt64.size : Int) = 0x10000000000000000 := rfl
  by_cases hfits : Text.fitsInt64 n = true
  · exact ⟨fun _ => .inl hfits, fun _ => h.exact hfits⟩
  rw [KeepsNumber, or_iff_right hfits]
  have hbounds : n < -0x8000000000000000 ∨ 0x8000000000000000 ≤ n := by
    rw [Text.fitsInt64_iff] at hfits
    omega
  constructor
  · intro heq
    have hpos : 0x8000000000000000 ≤ n := hbounds.resolve_left fun hneg => by
      have hk := h.negative hneg
      omega
    have hlt : n < UInt64.size := Int.not_le.1 fun hlarge => by
      have hk := h.saturated hlarge
      omega
    have hk := h.rounded hpos hlt
    refine ⟨hpos, hlt, ?_⟩
    omega
  · rintro ⟨hpos, hlt, hn⟩
    have hk := h.rounded hpos hlt
    rcases hn with hmod | rfl
    · have hmul : n.toNat = n.toNat / 2048 * 2048 := by omega
      rw [hmul, roundHalfEven_mul_right _ (by decide), ← hmul] at hk
      omega
    · rw [hk]
      decide

theorem countsAs_of_uint64? (hread : Text.readInt? v = some n) (h : (value v).uint64? = some k) :
    CountsAs n k.toNat := by
  have hsize : (UInt64.size : Int) = 0x10000000000000000 := rfl
  cases hfits : Text.fitsInt64 n with
  | true =>
    rw [value_of_fits hread hfits, Tree.uint64?, Option.ite_none_right_eq_some, Int64.le_iff_toInt_le,
      toInt_ofInt hfits, Option.some.injEq] at h
    obtain ⟨hpos, rfl⟩ := h
    have hpos : 0 ≤ n := hpos
    rw [Text.fitsInt64_iff] at hfits
    have hk : (UInt64.ofNat n.toNat).toNat = n.toNat := UInt64.toNat_ofNat_of_lt' (by omega)
    rw [hk]
    exact ⟨fun _ => by omega, fun _ _ => by omega, fun _ => by omega, fun _ => by omega⟩
  | false =>
    obtain ⟨negative, hpositive, hnegative, hx⟩ := Binary64.ofText?_of_readInt? hread
    have hvalue := value_of_not_fits (isWord_of_readInt? hread)
      (fun m hm => Option.some.inj (hread.symm.trans hm) ▸ hfits) hx
    rw [hvalue, Tree.uint64?, Option.some.injEq] at h
    subst h
    refine ⟨fun h => absurd h (by simp [hfits]), fun hlow hhigh => ?_, fun hlarge => ?_, fun hneg => ?_⟩
    · rw [hpositive (by omega), Binary64.toNat_ofDecimal_of_lt (by omega) (by omega),
        show n.natAbs = n.toNat by omega]
    · rw [hpositive (by omega), Binary64.toNat_ofDecimal_of_size_le (by omega)]
    · rw [hnegative (by omega), Binary64.toUInt64Saturating_ofDecimal_true]
      rfl

end Environment

namespace Tree

/-- The text that a value of a file is. -/
def text? : Tree → Option String
  | text s => some s
  | _ => none

theorem string?_of_text? {t : Tree} {v : String} (h : t.text? = some v) : t.string? = some v := by
  unfold text? at h
  split at h
  · exact h
  · cases h

/-- The integer that a value of a file is, or that its text writes. -/
def integer? : Tree → Option Int
  | int n => some n.toInt
  | text s => Text.readInt? s
  | _ => none

theorem ofWord?_of_readInt? {v : String} {n : Int} (h : Text.readInt? v = some n) : ofWord? v = none := by
  rw [ofWord?, Text.lower_of_readInt? h]
  have hne (w : String) (hw : Text.readInt? w = none) : v ≠ w := by
    rintro rfl
    cases hw.symm.trans h
  simp [hne "true" (by decide), hne "on" (by decide), hne "yes" (by decide), hne "false" (by decide),
    hne "off" (by decide), hne "no" (by decide)]

theorem toNat_of_uint64? {t : Tree} {n : Int} {k : UInt64} (hn : t.integer? = some n)
    (h : t.uint64? = some k) : (k.toNat : Int) = n := by
  unfold integer? at hn
  split at hn
  · next m =>
    obtain rfl := Option.some.inj hn
    rw [uint64?, Option.ite_none_right_eq_some, Int64.le_iff_toInt_le, Option.some.injEq] at h
    obtain ⟨hpos, rfl⟩ := h
    have hpos : 0 ≤ m.toInt := hpos
    have hlt := m.toInt_lt
    rw [UInt64.toNat_ofNat_of_lt' (by rw [show UInt64.size = 2 ^ 64 from rfl]; omega)]
    omega
  · next v =>
    rw [uint64?, ofWord?_of_readInt? hn] at h
    obtain ⟨m, hm, h⟩ := Option.bind_eq_some_iff.1 h
    obtain ⟨hlt, hk⟩ := Option.ite_none_right_eq_some.1 h
    obtain rfl := Option.some.inj hk
    rw [UInt64.toNat_ofNat_of_lt' hlt]
    exact Option.some.inj ((Text.readInt?_of_readNat? hm).symm.trans hn)
  · cases hn

end Tree

namespace Field

/-- The fields that hold a text. -/
def texts : List Field := [database, endpoint, authToken]

/-- The fields that hold an integer. -/
def integers : List Field :=
  [requestBufferSize, maxFilterMismatches, baseDelayMs, maxDelayMs, connectTimeoutMs, tcpKeepaliveSecs,
    http2KeepAliveIntervalSecs, http2KeepAliveTimeoutSecs]

/-- What settings have in a text field. -/
def text? (s : Settings) : Field → Option String
  | database => some s.listen.database
  | endpoint => some s.network.endpoint
  | authToken => s.network.authToken
  | _ => none

/-- What settings have in an integer field. -/
def integer? (s : Settings) : Field → Option Nat
  | requestBufferSize => some s.listen.requestBufferSize.toNat
  | maxFilterMismatches => some s.listen.maxFilterMismatches.toNat
  | baseDelayMs => some s.backoff.baseDelayMs.toNat
  | maxDelayMs => some s.backoff.maxDelayMs.toNat
  | connectTimeoutMs => some s.network.connectTimeoutMs.toNat
  | tcpKeepaliveSecs => some s.network.tcpKeepaliveSecs.toNat
  | http2KeepAliveIntervalSecs => some s.network.http2KeepAliveIntervalSecs.toNat
  | http2KeepAliveTimeoutSecs => some s.network.http2KeepAliveTimeoutSecs.toNat
  | _ => none

variable {f : Field} {t : Tree} {v : String}

theorem text?_of_read? (hf : f ∈ texts) (hread : f.read? t = some (f.get s)) (ht : t.string? = some v) :
    f.text? s = some v := by
  cases f with
  | database => exact hread.symm.trans ht
  | endpoint => exact hread.symm.trans ht
  | authToken =>
    have hoptional : t.optionalString? = some (some v) := by
      cases t with
      | nil => cases ht
      | bool | int | float | text | list | table => rw [Tree.optionalString?, ht, Option.map_some]; nofun
    exact Option.some.inj (hread.symm.trans hoptional)
  | requestBufferSize | maxFilterMismatches | baseDelayMs | maxDelayMs | multiplier | jitter | connectTimeoutMs
  | tcpKeepaliveSecs | http2KeepAliveIntervalSecs | http2KeepAliveTimeoutSecs | enableCompression =>
    exact absurd hf (by decide)

theorem integer?_of_read? (hf : f ∈ integers) (hread : f.read? t = some (f.get s)) :
    ∃ k, t.uint64? = some k ∧ f.integer? s = some k.toNat := by
  cases f with
  | maxFilterMismatches =>
    obtain ⟨k, hk, hsmall⟩ := Option.bind_eq_some_iff.1 hread
    obtain ⟨hlt, hvalue⟩ := Option.ite_none_right_eq_some.1 hsmall
    refine ⟨k, hk, ?_⟩
    have hsame : s.listen.maxFilterMismatches = k.toUInt32 := (Option.some.inj hvalue).symm
    rw [integer?, hsame, UInt64.toNat_toUInt32, Nat.mod_eq_of_lt hlt]
  | requestBufferSize | baseDelayMs | maxDelayMs | connectTimeoutMs | tcpKeepaliveSecs
  | http2KeepAliveIntervalSecs | http2KeepAliveTimeoutSecs => exact ⟨_, hread, rfl⟩
  | database | endpoint | authToken | multiplier | jitter | enableCompression => exact absurd hf (by decide)

end Field

variable {env : Environment} {file? : Option File} {source t : Tree} {c : Settings} {f : Field}

theorem read?_of_winner? (henv : env.tree.Regular) (hfile : source? file? = some source)
    (hsource : source.Regular) (h : c.overlay env file? = .ok s) (hwinner : winner? env source f = some t) :
    f.read? t = some (f.get s) := by
  obtain ⟨base, source', -, hfile', hsettings⟩ := overlay_eq_ok_iff.1 h
  obtain rfl := Option.some.inj (hfile.symm.trans hfile')
  refine Tree.read?_of_settings? hsettings ?_
  rw [leaf?_layers henv hsource, hwinner]
  rfl

/-- What settings have for the texts and the integers that they were given. A file gives them as they stand,
and cannot be read if an integer is too large. A variable alters a text that is taken for a Boolean or a
number and shown in another way, which no valid database or endpoint is, and a number beyond the signed
64-bit integers that no double holds. -/
theorem overlay_as_written (henv : env.tree.Regular) (hfile : source? file? = some source)
    (hsource : source.Regular) (h : c.overlay env file? = .ok s) :
    (∀ f ∈ Field.texts,
      (∀ v, env.valueOf? f = some v → ∃ t, f.text? s = some t ∧ Environment.ComesOut v t ∧
        (t = v ↔ Environment.KeepsText v)) ∧
      ∀ v, env.valueOf? f = none → (source.given? f).bind Tree.text? = some v → f.text? s = some v) ∧
    (s.complaint? = none → ∀ f ∈ [Field.database, .endpoint], ∀ v,
      env.valueOf? f = some v → f.text? s = some v) ∧
    (∀ f ∈ Field.integers,
      (∀ v n, env.valueOf? f = some v → Text.readInt? v = some n → ∃ k, f.integer? s = some k ∧
        Environment.CountsAs n k ∧ ((k : Int) = n ↔ Environment.KeepsNumber n)) ∧
      ∀ n, env.valueOf? f = none → (source.given? f).bind Tree.integer? = some n →
        ∃ k, f.integer? s = some k ∧ (k : Int) = n) ∧
    ∀ (n : Int) (rest : List Char) (depth : Nat), Toml.Reader.Follows rest →
      Toml.Reader.value depth ((toString n).toList ++ rest) =
        if Text.fitsInt64 n then some (.int (.ofInt n), rest) else none := by
  have hvariable {f : Field} {v : String} (hv : env.valueOf? f = some v) :
      f.read? (Environment.value v) = some (f.get s) :=
    read?_of_winner? henv hfile hsource h (by rw [winner?, hv]; rfl)
  have hgiven {f : Field} {t : Tree} (hv : env.valueOf? f = none) (ht : source.given? f = some t) :
      f.read? t = some (f.get s) :=
    read?_of_winner? henv hfile hsource h (by rw [winner?, hv, ht]; rfl)
  have htext : ∀ f ∈ Field.texts, ∀ v, env.valueOf? f = some v →
      ∃ t, f.text? s = some t ∧ Environment.ComesOut v t := by
    intro f hf v hv
    obtain ⟨t, ht, hcomes⟩ := Environment.exists_string?_value v
    exact ⟨t, Field.text?_of_read? hf (hvariable hv) ht, hcomes⟩
  refine ⟨fun f hf => ⟨?_, ?_⟩, fun hvalid f hf v hv => ?_, fun f hf => ⟨?_, ?_⟩,
    fun n rest depth hrest => Toml.Reader.value_toString n hrest depth⟩
  · intro v hv
    obtain ⟨t, ht, hcomes⟩ := htext f hf v hv
    exact ⟨t, ht, hcomes, hcomes.eq_iff⟩
  · intro v hv ht
    obtain ⟨t, hgivenText, ht⟩ := Option.bind_eq_some_iff.1 ht
    exact Field.text?_of_read? hf (hgiven hv hgivenText) (Tree.string?_of_text? ht)
  · obtain ⟨hdatabase, hendpoint⟩ := slash_mem_of_complaint? hvalid
    rw [List.mem_cons, List.mem_singleton] at hf
    rcases hf with rfl | rfl
    · obtain ⟨t, ht, hcomes⟩ := htext .database (by decide) v hv
      rw [ht, hcomes.eq_of_slash (Option.some.inj ht ▸ hdatabase)]
    · obtain ⟨t, ht, hcomes⟩ := htext .endpoint (by decide) v hv
      rw [ht, hcomes.eq_of_slash (Option.some.inj ht ▸ hendpoint)]
  · intro v n hv hread
    obtain ⟨k, hk, hinteger⟩ := Field.integer?_of_read? hf (hvariable hv)
    have hcounts := Environment.countsAs_of_uint64? hread hk
    exact ⟨k.toNat, hinteger, hcounts, hcounts.eq_iff⟩
  · intro n hv hn
    obtain ⟨t, ht, hn⟩ := Option.bind_eq_some_iff.1 hn
    obtain ⟨k, hk, hinteger⟩ := Field.integer?_of_read? hf (hgiven hv ht)
    exact ⟨k.toNat, hinteger, Tree.toNat_of_uint64? hn hk⟩

/-- A token and a bound in variables, beside a text and a number in a file. -/
theorem overlay_as_written_mixed : ∃ s,
    load [("WATCH__NETWORK__AUTH_TOKEN", "007"), ("WATCH__BACKOFF__MAX_DELAY_MS", "9223372036854777856")]
        (some (.text "[network]\nendpoint = \"https://h\"\n[listen]\nrequest_buffer_size = 4\n")) = .ok s ∧
      s.network.authToken = some "7" ∧ s.backoff.maxDelayMs.toNat = 9223372036854777856 ∧
      s.network.endpoint = "https://h" ∧ s.listen.requestBufferSize.toNat = 4 := by
  let env : Environment :=
    [("WATCH__NETWORK__AUTH_TOKEN", "007"), ("WATCH__BACKOFF__MAX_DELAY_MS", "9223372036854777856")]
  let file : File := .text "[network]\nendpoint = \"https://h\"\n[listen]\nrequest_buffer_size = 4\n"
  have hread : ((source? (some file)).map fun source => decide (env.tree.Regular ∧ source.Regular ∧
      Readable env source ∧ (source.given? .endpoint).bind Tree.text? = some "https://h" ∧
      (source.given? .requestBufferSize).bind Tree.integer? = some 4)) = some true := by
    decide +kernel
  obtain ⟨source, hfile, hchecked⟩ := Option.map_eq_some_iff.1 hread
  obtain ⟨henv, hsource, hreadable, hendpoint, hsize⟩ := of_decide_eq_true hchecked
  obtain ⟨s, hs, -⟩ := exists_overlay henv hfile hsource hreadable (c := .default) (by decide)
  obtain ⟨htexts, -, hintegers, -⟩ := overlay_as_written henv hfile hsource hs
  obtain ⟨token, htoken, hcomes, -⟩ := (htexts .authToken (by decide)).1 "007" rfl
  have htoken7 : token = "7" := by
    cases hcomes with
    | word hword => exact absurd hword (by decide)
    | integer hn =>
      obtain rfl := Option.some.inj (hn.symm.trans (show Text.readInt? "007" = some 7 by decide))
      rfl
    | number _ hfits => exact absurd (hfits 7 (by decide)) (by decide)
    | plain _ hplain => exact absurd hplain (by decide)
  obtain ⟨k, hk, -, hkept⟩ :=
    (hintegers .maxDelayMs (by decide)).1 "9223372036854777856" 9223372036854777856 rfl (by decide)
  obtain ⟨size, hsize, hfour⟩ := (hintegers .requestBufferSize (by decide)).2 4 rfl hsize
  have hdelay : (k : Int) = 9223372036854777856 := hkept.2 (.inr (by decide))
  refine ⟨s, hs, htoken7 ▸ htoken, ?_, ?_, ?_⟩
  · have hsame : s.backoff.maxDelayMs.toNat = k := Option.some.inj hk
    omega
  · exact Option.some.inj ((htexts .endpoint (by decide)).2 "https://h" rfl hendpoint)
  · have hsame : s.listen.requestBufferSize.toNat = size := Option.some.inj hsize
    omega

/-- A token of digits loses its leading zeros, and a bound beyond the signed integers becomes another. -/
theorem token_and_bound_altered :
    (load [("WATCH__NETWORK__AUTH_TOKEN", "007"), ("WATCH__BACKOFF__MAX_DELAY_MS", "9223372036854775809")]
        none).toOption.map (fun s => (s.network.authToken, s.backoff.maxDelayMs.toNat)) =
      some (some "7", 9223372036854775808) := by
  decide +kernel

end Settings

end LiveQuery
