import Mathlib.Data.List.Basic
import LiveQuery.Toml.Entry
import LiveQuery.Proofs.Layering

namespace LiveQuery

namespace Text

variable {m : Nat} {c : Char}

theorem head?_toDigits_ne (hm : m ≠ 0) : (Nat.toDigits 10 m).head? ≠ some '0' := by
  induction m using Nat.strongRecOn with
  | ind m ih =>
    by_cases hlt : m < 10
    · rw [Nat.toDigits_of_lt_base hlt, List.head?_cons]
      intro hzero
      have hvalue := Nat.toNat_digitChar_of_lt_ten hlt
      rw [Option.some.inj hzero, show '0'.toNat = 48 from rfl] at hvalue
      omega
    · rw [Nat.toDigits_of_base_le (by decide) (by omega), List.head?_append_of_ne_nil _ Nat.toDigits_ne_nil]
      exact ih (m / 10) (by omega) (by omega)

theorem isDigit_of_mem_toDigits (h : c ∈ Nat.toDigits 10 m) : isDigit c = true :=
  Nat.isDigit_of_mem_toDigits (by decide) (by decide) h

theorem toList_toString (n : Int) :
    (toString n).toList = (if n < 0 then ['-'] else []) ++ Nat.toDigits 10 n.natAbs := by
  cases n with
  | ofNat m =>
    have hneg : ¬ Int.ofNat m < 0 := Int.not_lt.2 (Int.natCast_nonneg m)
    rw [if_neg hneg]
    exact Nat.toList_repr
  | negSucc m =>
    rw [if_pos (by omega)]
    change ("-" ++ m.succ.repr).toList = _
    rw [String.toList_append, Nat.toList_repr]
    rfl

theorem ofDigits_toDigits (m : Nat) : ofDigits (Nat.toDigits 10 m) = m := by
  have hdigits := Nat.ofDigitChars_ten_toDigits (n := m)
  rwa [Nat.ofDigitChars_eq_foldl] at hdigits

end Text

namespace Toml.Reader

variable {α β : Type} {cs ds rest tail : List Char} {c : Char} {n : Int} {m : Nat}

theorem bind_apply (x : Reader α) (f : α → Reader β) (cs : List Char) :
    (x >>= f) cs = (x cs).bind fun r => f r.1 r.2 := rfl

theorem pure_apply (a : α) (cs : List Char) : (pure a : Reader α) cs = some (a, cs) := rfl

theorem orElse_apply (x y : Reader α) (cs : List Char) : (x <|> y) cs = (x cs).or (y cs) := by
  change (x cs).orElse (fun _ => y cs) = _
  cases x cs <;> rfl

theorem map_apply (g : α → β) (x : Reader α) (cs : List Char) :
    (g <$> x) cs = (x cs).map fun r => (g r.1, r.2) := by
  change (x cs).bind (fun r => some (g r.1, r.2)) = _
  cases x cs <;> rfl

theorem accept_eq_false {w : String} (h : ∀ rest, cs ≠ w.toList ++ rest) : accept w cs = some (false, cs) := by
  unfold accept
  split
  · next rest hrest => exact absurd (Text.isPrefixOf?_eq_some_iff.1 hrest) (h rest)
  · rfl

theorem accept_eq_false_of_head {w : String} {d : Char} (hw : w.toList.head? = some d) (hcs : cs.head? ≠ some d) :
    accept w cs = some (false, cs) := by
  refine accept_eq_false fun rest h => hcs ?_
  rw [h, List.head?_append, hw, Option.some_or]

theorem accept_append (w : String) (rest : List Char) : accept w (w.toList ++ rest) = some (true, rest) := by
  unfold accept
  rw [Text.isPrefixOf?_eq_some_iff.2 rfl]

theorem word_eq_some_iff {w : String} {r : Unit × List Char} : word w cs = some r ↔ cs = w.toList ++ r.2 := by
  unfold word
  rw [Option.map_eq_some_iff]
  constructor
  · rintro ⟨rest, hrest, rfl⟩
    exact Text.isPrefixOf?_eq_some_iff.1 hrest
  · intro h
    exact ⟨r.2, Text.isPrefixOf?_eq_some_iff.2 h, rfl⟩

theorem word_eq_none_of_head {w : String} {d : Char} (hw : w.toList.head? = some d) (hcs : cs.head? ≠ some d) :
    word w cs = none := by
  rw [Option.eq_none_iff_forall_ne_some]
  intro r hr
  refine hcs ?_
  rw [word_eq_some_iff.1 hr, List.head?_append, hw, Option.some_or]

/-- What a blank, a line break, a comment, another item or the end of a list or an inline table starts with. -/
def followers : List Char := [' ', '\t', '\r', '\n', '#', ',', ']', '\x7d']

/-- Whether a text may stand after a number. -/
def Follows (rest : List Char) : Prop := ∀ c, rest.head? = some c → c ∈ followers

theorem Follows.head?_ne (h : Follows rest) (hc : c ∉ followers) : rest.head? ≠ some c :=
  fun hhead => hc (h c hhead)

theorem Follows.not_isDigit (h : Follows (c :: rest)) : Text.isDigit c = false := by
  have hall : followers.all (fun c => !Text.isDigit c) = true := by decide
  simpa using List.all_eq_true.1 hall c (h c rfl)

/-- After digits a number ends. -/
theorem dropWhile_digits (hdigits : ∀ d ∈ ds, Text.isDigit d = true) (h : Follows rest) :
    (ds ++ rest).dropWhile Text.isDigit = rest := by
  rw [List.dropWhile_append_of_pos hdigits]
  cases rest with
  | nil => rfl
  | cons c rest => exact List.dropWhile_cons_of_neg (by simp [h.not_isDigit])

theorem fixedDigits_eq_some {count start k : Nat} (h : fixedDigits count start cs = some (k, rest)) :
    ∃ ds, ds.length = count ∧ (∀ d ∈ ds, Text.isDigit d = true) ∧ cs = ds ++ rest := by
  induction count generalizing start cs with
  | zero =>
    obtain ⟨-, rfl⟩ := Prod.mk.inj (Option.some.inj h)
    exact ⟨[], rfl, nofun, rfl⟩
  | succ count ih =>
    rw [fixedDigits, bind_apply] at h
    obtain ⟨⟨c, tail⟩, hnext, h⟩ := Option.bind_eq_some_iff.1 h
    have hcs : cs = c :: tail := by
      cases cs with
      | nil => cases hnext
      | cons => cases hnext; rfl
    dsimp only at h
    split at h
    · next hdigit =>
      obtain ⟨ds, hlength, hdigits, htail⟩ := ih h
      refine ⟨c :: ds, by rw [List.length_cons, hlength], ?_, by rw [hcs, htail, List.cons_append]⟩
      exact List.forall_mem_cons.2 ⟨hdigit, hdigits⟩
    · cases h

/-- A date starts with a year and a hyphen. -/
theorem date_eq_some {r : Date × List Char} (h : date cs = some r) :
    ∃ ds tail, ds ≠ [] ∧ (∀ d ∈ ds, Text.isDigit d = true) ∧ cs = ds ++ '-' :: tail := by
  rw [date, bind_apply] at h
  obtain ⟨⟨year, afterYear⟩, hyear, h⟩ := Option.bind_eq_some_iff.1 h
  obtain ⟨⟨_, afterHyphen⟩, hword, -⟩ := Option.bind_eq_some_iff.1 h
  obtain ⟨ds, hlength, hdigits, rfl⟩ := fixedDigits_eq_some hyear
  refine ⟨ds, afterHyphen, ?_, hdigits, ?_⟩
  · rintro rfl
    cases hlength
  · exact congrArg (ds ++ ·) (word_eq_some_iff.1 hword)

/-- A time of day starts with an hour and a colon. -/
theorem clockTime_eq_some {r : ClockTime × List Char} (h : clockTime cs = some r) :
    ∃ ds tail, ds ≠ [] ∧ (∀ d ∈ ds, Text.isDigit d = true) ∧ cs = ds ++ ':' :: tail := by
  rw [clockTime, bind_apply] at h
  obtain ⟨⟨hour, afterHour⟩, hhour, h⟩ := Option.bind_eq_some_iff.1 h
  obtain ⟨⟨_, afterColon⟩, hword, -⟩ := Option.bind_eq_some_iff.1 h
  rw [twoDigits, bind_apply] at hhour
  obtain ⟨⟨k, afterDigits⟩, hfixed, hhour⟩ := Option.bind_eq_some_iff.1 hhour
  have hsame : afterDigits = afterHour := by
    dsimp only at hhour
    split at hhour
    · exact (Prod.mk.inj (Option.some.inj hhour)).2
    · cases hhour
  obtain ⟨ds, hlength, hdigits, rfl⟩ := fixedDigits_eq_some hfixed
  refine ⟨ds, afterColon, ?_, hdigits, ?_⟩
  · rintro rfl
    cases hlength
  · rw [hsame]
    exact congrArg (ds ++ ·) (word_eq_some_iff.1 hword)

/-- No date-time is read where the first digits are followed by neither a hyphen nor a colon. -/
theorem dateTime_eq_none (hhead : ∀ ds tail, ds ≠ [] → (∀ d ∈ ds, Text.isDigit d = true) →
    cs ≠ ds ++ '-' :: tail ∧ cs ≠ ds ++ ':' :: tail) : dateTime cs = none := by
  have hdate : date cs = none := by
    rw [Option.eq_none_iff_forall_ne_some]
    intro r hr
    obtain ⟨ds, tail, hne, hdigits, hcs⟩ := date_eq_some hr
    exact (hhead ds tail hne hdigits).1 hcs
  have hclock : clockTime cs = none := by
    rw [Option.eq_none_iff_forall_ne_some]
    intro r hr
    obtain ⟨ds, tail, hne, hdigits, hcs⟩ := clockTime_eq_some hr
    exact (hhead ds tail hne hdigits).2 hcs
  rw [dateTime, orElse_apply, bind_apply, hdate, map_apply, hclock]
  rfl

theorem digits_append (hne : ds ≠ []) (hdigits : ∀ d ∈ ds, Text.isDigit d = true) (h : Follows rest) :
    digits Text.isDigit (ds ++ rest) = some (ds, rest) := by
  induction ds with
  | nil => exact absurd rfl hne
  | cons d ds ih =>
    have hd : Text.isDigit d = true := hdigits d List.mem_cons_self
    have hds : ∀ d ∈ ds, Text.isDigit d = true := fun d hmem => hdigits d (List.mem_cons_of_mem _ hmem)
    cases ds with
    | nil =>
      cases rest with
      | nil => exact if_pos hd
      | cons c rest =>
        have hc : c ≠ '_' := by
          rintro rfl
          exact absurd (h '_' rfl) (by decide)
        rw [List.singleton_append, digits, hd, h.not_isDigit]
        · rfl
        · exact hc
    | cons d' ds =>
      have hd' : Text.isDigit d' = true := hds d' List.mem_cons_self
      have hunderscore : d' ≠ '_' := by
        rintro rfl
        cases hd'
      have hrest := ih (List.cons_ne_nil d' ds) hds
      rw [List.cons_append] at hrest
      rw [List.cons_append, List.cons_append, digits, hd, hd', hrest]
      · rfl
      · exact hunderscore

theorem wholeDigits_append (m : Nat) (h : Follows rest) :
    wholeDigits (Nat.toDigits 10 m ++ rest) = some (Nat.toDigits 10 m, rest) := by
  rw [wholeDigits, bind_apply]
  by_cases hm : m = 0
  · rw [hm, Nat.toDigits_zero]
    exact congrArg (Option.bind · _) (accept_append "0" rest)
  · have hno : accept "0" (Nat.toDigits 10 m ++ rest) = some (false, Nat.toDigits 10 m ++ rest) := by
      refine accept_eq_false fun tail htail => Text.head?_toDigits_ne hm ?_
      have hhead : (Nat.toDigits 10 m ++ rest).head? = (Nat.toDigits 10 m).head? :=
        List.head?_append_of_ne_nil _ Nat.toDigits_ne_nil
      rw [← hhead, htail]
      rfl
    rw [hno]
    exact digits_append Nat.toDigits_ne_nil (fun d hd => Text.isDigit_of_mem_toDigits hd) h

theorem head?_digits_ne (m : Nat) (rest : List Char) (hc : Text.isDigit c = false) :
    (Nat.toDigits 10 m ++ rest).head? ≠ some c := by
  intro h
  rw [List.head?_append_of_ne_nil _ Nat.toDigits_ne_nil] at h
  rw [Text.isDigit_of_mem_toDigits (List.mem_of_head? h)] at hc
  cases hc

/-- An integer starts with a minus sign or a digit. -/
theorem head?_toString_ne (n : Int) (rest : List Char) (hsign : c ≠ '-') (hc : Text.isDigit c = false) :
    ((toString n).toList ++ rest).head? ≠ some c := by
  rw [Text.toList_toString, List.append_assoc]
  by_cases hneg : n < 0
  · rw [if_pos hneg]
    exact fun h => hsign (Option.some.inj h).symm
  · rw [if_neg hneg]
    exact head?_digits_ne _ _ hc

theorem sign_toString (n : Int) (rest : List Char) : sign ((toString n).toList ++ rest) =
    some (decide (n < 0), Nat.toDigits 10 n.natAbs ++ rest) := by
  rw [Text.toList_toString, List.append_assoc, sign, bind_apply]
  by_cases hneg : n < 0
  · rw [if_pos hneg, decide_eq_true hneg]
    exact congrArg (Option.bind · _) (accept_append "-" _)
  · have hminus := head?_digits_ne n.natAbs rest (c := '-') (by decide)
    have hplus := head?_digits_ne n.natAbs rest (c := '+') (by decide)
    rw [if_neg hneg, decide_eq_false hneg, List.nil_append, accept_eq_false_of_head (by decide) hminus]
    exact congrArg (Option.bind · _) (accept_eq_false_of_head (by decide) hplus)

theorem exponent?_follows (h : Follows rest) : exponent? rest = some (none, rest) := by
  have hno : acceptChar (fun c => c = 'e' || c = 'E') rest = some (false, rest) := by
    cases rest with
    | nil => rfl
    | cons c rest =>
      have hall : followers.all (fun c => !(c = 'e' || c = 'E')) = true := by decide
      have hc := List.all_eq_true.1 hall c (h c rfl)
      rw [acceptChar, if_neg (by simpa using hc)]
  rw [exponent?, bind_apply, hno]
  rfl

theorem float_toString_eq_none (n : Int) (h : Follows rest) : float ((toString n).toList ++ rest) = none := by
  have hdecimal : decimalFloat ((toString n).toList ++ rest) = none := by
    have hpoint : rest.head? ≠ some '.' := h.head?_ne (by decide)
    rw [decimalFloat, bind_apply, sign_toString, Option.bind_some, bind_apply, wholeDigits_append _ h,
      Option.bind_some, bind_apply, accept_eq_false_of_head (by decide) hpoint, Option.bind_some]
    dsimp only
    rw [if_neg Bool.false_ne_true, bind_apply, pure_apply, Option.bind_some, bind_apply, exponent?_follows h]
    rfl
  have hspecial : specialFloat ((toString n).toList ++ rest) = none := by
    have hinf := head?_digits_ne n.natAbs rest (c := 'i') (by decide)
    have hnan := head?_digits_ne n.natAbs rest (c := 'n') (by decide)
    rw [specialFloat, bind_apply, sign_toString, Option.bind_some, bind_apply,
      accept_eq_false_of_head (by decide) hinf, Option.bind_some]
    exact congrArg (Option.bind · _) (word_eq_none_of_head (by decide) hnan)
  rw [float, orElse_apply, hdecimal, hspecial]
  rfl

/-- The first digits of an integer are all of it, so that what stands after them follows it. -/
theorem toString_append_ne (n : Int) (h : Follows rest) (hne : ds ≠ [])
    (hds : ∀ d ∈ ds, Text.isDigit d = true) (hdigit : Text.isDigit c = false) (hc : c ∉ followers)
    (tail : List Char) : (toString n).toList ++ rest ≠ ds ++ c :: tail := by
  intro heq
  rw [Text.toList_toString, List.append_assoc] at heq
  by_cases hneg : n < 0
  · obtain ⟨d, ds, rfl⟩ := List.exists_cons_of_ne_nil hne
    rw [if_pos hneg] at heq
    have hd := hds d List.mem_cons_self
    rw [← (List.cons.inj heq).1] at hd
    cases hd
  · rw [if_neg hneg, List.nil_append] at heq
    have hrest := dropWhile_digits (fun d hd => Text.isDigit_of_mem_toDigits (m := n.natAbs) hd) h
    rw [heq, List.dropWhile_append_of_pos hds, List.dropWhile_cons_of_neg (by simp [hdigit])] at hrest
    exact hc (h c (by rw [← hrest]; rfl))

theorem dateTime_toString_eq_none (n : Int) (h : Follows rest) :
    dateTime ((toString n).toList ++ rest) = none :=
  dateTime_eq_none fun _ tail hne hds =>
    ⟨toString_append_ne n h hne hds (by decide) (by decide) tail,
      toString_append_ne n h hne hds (by decide) (by decide) tail⟩

/-- A decimal integer is read as itself, or refused if it has more than 64 bits with its sign. -/
theorem integer_toString (n : Int) (h : Follows rest) : integer ((toString n).toList ++ rest) =
    if Text.fitsInt64 n then some (.ofInt n, rest) else none := by
  have hzero : ∀ d ∈ ['0'], Text.isDigit d = true := List.forall_mem_singleton.2 rfl
  -- no mark of a base comes after a zero that starts the number
  have hbased (w : String) (mark : Char) (hw : w.toList = ['0', mark]) (hmark : Text.isDigit mark = false)
      (hfollow : mark ∉ followers) :
      accept w ((toString n).toList ++ rest) = some (false, (toString n).toList ++ rest) :=
    accept_eq_false fun tail htail =>
      toString_append_ne n h (List.cons_ne_nil '0' []) hzero hmark hfollow tail (htail.trans (by rw [hw]; rfl))
  rw [integer, bind_apply, hbased "0x" 'x' (by decide) (by decide) (by decide), Option.bind_some]
  dsimp only
  rw [if_neg Bool.false_ne_true, bind_apply, hbased "0o" 'o' (by decide) (by decide) (by decide),
    Option.bind_some]
  dsimp only
  rw [if_neg Bool.false_ne_true, bind_apply, hbased "0b" 'b' (by decide) (by decide) (by decide),
    Option.bind_some]
  dsimp only
  rw [if_neg Bool.false_ne_true, bind_apply, sign_toString, Option.bind_some, bind_apply,
    wholeDigits_append _ h, Option.bind_some, Text.ofDigits_toDigits]
  dsimp only
  have hvalue : (if decide (n < 0) = true then -(n.natAbs : Int) else n.natAbs) = n := by
    by_cases hneg : n < 0
    · rw [if_pos (decide_eq_true hneg)]
      omega
    · rw [if_neg (by simpa using hneg)]
      omega
  rw [hvalue, int64]
  split
  · rfl
  · rfl

theorem scalar_toString (n : Int) (h : Follows rest) : scalar ((toString n).toList ++ rest) =
    if Text.fitsInt64 n then some (.int (.ofInt n), rest) else none := by
  have hnumber : scalar ((toString n).toList ++ rest) =
      (Value.dateTime <$> dateTime <|> Value.float <$> float <|> Value.int <$> integer)
        ((toString n).toList ++ rest) := by
    rw [scalar, bind_apply, peek?, Option.bind_some]
    refine congrFun ?_ ((toString n).toList ++ rest)
    dsimp only
    split
    · next heq => exact absurd heq (head?_toString_ne n rest (by decide) (by decide))
    · next heq => exact absurd heq (head?_toString_ne n rest (by decide) (by decide))
    · next heq => exact absurd heq (head?_toString_ne n rest (by decide) (by decide))
    · next heq => exact absurd heq (head?_toString_ne n rest (by decide) (by decide))
    · rfl
  rw [hnumber, orElse_apply, orElse_apply, map_apply, map_apply, map_apply, dateTime_toString_eq_none n h,
    float_toString_eq_none n h, integer_toString n h]
  split
  · rfl
  · rfl

/-- A value that is a decimal integer is read as itself, or refused if it has more than 64 bits with its
sign. -/
theorem value_toString (n : Int) (h : Follows rest) (depth : Nat) :
    value depth ((toString n).toList ++ rest) =
      if Text.fitsInt64 n then some (.int (.ofInt n), rest) else none := by
  have hbracket := head?_toString_ne n rest (c := '[') (by decide) (by decide)
  have hbrace := head?_toString_ne n rest (c := '\x7b') (by decide) (by decide)
  cases depth with
  | zero => exact scalar_toString n h
  | succ depth =>
    rw [value, bind_apply, accept_eq_false_of_head (by decide) hbracket, Option.bind_some]
    dsimp only
    rw [if_neg Bool.false_ne_true, bind_apply, accept_eq_false_of_head (by decide) hbrace, Option.bind_some]
    exact scalar_toString n h

end Toml.Reader

end LiveQuery
