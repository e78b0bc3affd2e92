import LiveQuery.Proofs.SettingsFields

namespace LiveQuery

namespace Text

theorem lowerChar_eq_self {c : Char} (hkelvin : c ≠ '\u212a') (hupper : ¬ (c.val ≥ 'A'.val ∧ c.val ≤ 'Z'.val)) :
    lowerChar c = c := by
  rw [lowerChar, if_neg hkelvin]
  exact dif_neg hupper

theorem lowerChar_lowerChar (c : Char) : lowerChar (lowerChar c) = lowerChar c := by
  by_cases hk : c = '\u212a'
  · have hlower : lowerChar c = 'k' := if_pos hk
    rw [hlower]
    decide
  by_cases hu : c.val ≥ 'A'.val ∧ c.val ≤ 'Z'.val
  · have hlower : lowerChar c = c.toLower := if_neg hk
    have hval : c.toLower.val = c.val + 32 := congrArg Char.val (dif_pos hu)
    have hbounds : 65 ≤ c.val.toNat ∧ c.val.toNat ≤ 90 := hu
    have hnat : c.toLower.val.toNat = c.val.toNat + 32 := by
      rw [hval, UInt32.toNat_add, show (32 : UInt32).toNat = 32 from rfl]
      omega
    have hkelvin : c.toLower ≠ '\u212a' := by
      intro h
      rw [h, show ('\u212a' : Char).val.toNat = 8490 from rfl] at hnat
      omega
    have hupper : ¬ (c.toLower.val ≥ 'A'.val ∧ c.toLower.val ≤ 'Z'.val) := by
      rintro ⟨-, h⟩
      have h : c.toLower.val.toNat ≤ 90 := h
      omega
    rw [hlower, lowerChar_eq_self hkelvin hupper]
  · rw [lowerChar_eq_self hk hu, lowerChar_eq_self hk hu]

theorem isPrefixOf?_eq_some_iff {as bs rest : List Char} :
    as.isPrefixOf? bs = some rest ↔ bs = as ++ rest := by
  induction as generalizing bs with
  | nil => exact Option.some_inj
  | cons a as ih =>
    cases bs with
    | nil => exact ⟨nofun, nofun⟩
    | cons b bs =>
      change (if a == b then as.isPrefixOf? bs else none) = some rest ↔ _
      by_cases hab : a = b
      · simp [ih, hab]
      · simp [hab, Ne.symm hab]

theorem lower_eq_self {s : String} (h : ∀ c ∈ s.toList, lowerChar c = c) : lower s = s := by
  rw [lower, List.map_congr_left h, List.map_id', String.ofList_toList]

end Text

namespace Settings

namespace Tree

variable {f : Field} {source below value v : Tree} {steps : List Step} {es : List (String × Tree)}

def isTable : Tree → Bool
  | table _ => true
  | _ => false

theorem mergeOver_of_not_isTable (h : v.isTable = false) (below : Tree) : v.mergeOver below = v := by
  cases v with
  | table => cases h
  | nil | bool | int | float | text | list => rw [mergeOver]

end Tree

namespace Field

/-- What a value laid at the end of steps within a section gives a field of the section. -/
def givenInside? (f : Field) : List Step → Tree → Option Tree
  | [], value => ((value.entries.filter fun e => Text.lower e.1 = f.name).getLast?).map Prod.snd
  | [.key name], value => if Text.lower name = f.name then some value else none
  | _, _ => none

/-- What a value laid at the end of steps gives a field. -/
def given? (f : Field) : List Step → Tree → Option Tree
  | .key part :: steps, value => if Text.lower part = f.part then f.givenInside? steps value else none
  | _, _ => none

/-- Whether a value laid at the end of steps within a section leaves the section a table and makes no table
of a field. -/
def admitsInside (f : Field) : List Step → Tree → Bool
  | [], .table entries => entries.all fun e => Text.lower e.1 ≠ f.name || !e.2.isTable
  | [.key name], value => Text.lower name ≠ f.name || !value.isTable
  | .key name :: _ :: _, _ => Text.lower name ≠ f.name
  | _, _ => false

def admits (f : Field) : List Step → Tree → Bool
  | .key part :: steps, value => Text.lower part ≠ f.part || f.admitsInside steps value
  | _, _ => false

end Field

namespace Tree

variable {f : Field} {source below value v : Tree} {steps : List Step} {es : List (String × Tree)}

/-- What a source gives a field. -/
def given? (source : Tree) (f : Field) : Option Tree :=
  (source.entries.filterMap fun e => f.given? (KeyPath.ofKey e.1) e.2).getLast?

/-- Whether all that a source has for a section is a table, and none that it has for a field. -/
def Regular (source : Tree) : Prop :=
  ∀ f : Field, source.entries.all (fun e => f.admits (KeyPath.ofKey e.1) e.2) = true

instance (source : Tree) : Decidable source.Regular :=
  inferInstanceAs (Decidable (∀ f : Field,
    source.entries.all (fun e => f.admits (KeyPath.ofKey e.1) e.2) = true))

theorem entries_table (es : List (String × Tree)) : (table es).entries = es := rfl

theorem entries_setAt_key (value : Tree) (name : String) (steps : List Step) (below : Tree) :
    (setAt value (.key name :: steps) below).entries =
      setEntry (Text.lower name)
        (setAt value steps ((below.entries.lookup (Text.lower name)).getD (table []))) below.entries := by
  rw [setAt, entries_table]
  cases below.entries.lookup (Text.lower name) <;> rfl

theorem getLast?_cons_or {α : Type} (a : α) (as : List α) : (a :: as).getLast? = as.getLast?.or (some a) := by
  rw [List.getLast?_cons]
  cases as.getLast? <;> rfl

theorem lookup_mergeEntries (h : f.admitsInside [] (table es) = true) (below : Tree) :
    (mergeEntries es below).entries.lookup f.name =
      (f.givenInside? [] (table es)).or (below.entries.lookup f.name) := by
  induction es generalizing below with
  | nil => rfl
  | cons e rest ih =>
    obtain ⟨key, value⟩ := e
    rw [Field.admitsInside, List.all_cons, Bool.and_eq_true] at h
    obtain ⟨hvalue, hrest⟩ := h
    rw [mergeEntries, ih hrest, entries_table, Field.givenInside?, Field.givenInside?, entries_table,
      entries_table]
    by_cases hkey : Text.lower key = f.name
    · have hscalar : value.isTable = false := by simpa [hkey] using hvalue
      rw [List.filter_cons_of_pos (by simpa using hkey), getLast?_cons_or, Option.map_or, Option.or_assoc,
        hkey, lookup_setEntry, mergeOver_of_not_isTable hscalar]
      rfl
    · rw [List.filter_cons_of_neg (by simpa using hkey), lookup_setEntry_of_ne (Ne.symm hkey)]

theorem lookup_setAt (h : f.admitsInside steps value = true) (below : Tree) :
    (setAt value steps below).entries.lookup f.name =
      (f.givenInside? steps value).or (below.entries.lookup f.name) := by
  cases steps with
  | nil =>
    cases value with
    | table es =>
      rw [setAt, mergeOver]
      exact lookup_mergeEntries h below
    | nil | bool | int | float | text | list => cases h
  | cons step steps =>
    cases step with
    | index => cases h
    | key name =>
      rw [entries_setAt_key]
      by_cases hname : Text.lower name = f.name
      · cases steps with
        | cons => simp [Field.admitsInside, hname] at h
        | nil =>
          have hscalar : value.isTable = false := by simpa [Field.admitsInside, hname] using h
          rw [hname, lookup_setEntry, setAt, mergeOver_of_not_isTable hscalar, Field.givenInside?,
            if_pos hname]
          rfl
      · have hnone : f.givenInside? (.key name :: steps) value = none := by
          cases steps with
          | cons => rfl
          | nil => exact if_neg hname
        rw [lookup_setEntry_of_ne (Ne.symm hname), hnone, Option.none_or]

/-- A value laid over a tree gives its own to some fields, and leaves the others as they were. -/
theorem leaf?_setAt (h : f.admits steps value = true) (below : Tree) :
    (setAt value steps below).leaf? f = (f.given? steps value).or (below.leaf? f) := by
  match steps with
  | [] | .index _ :: _ => cases h
  | .key part :: steps =>
    rw [leaf?, leaf?, entries_setAt_key, Field.given?]
    by_cases hpart : Text.lower part = f.part
    · have hinside : f.admitsInside steps value = true := by simpa [Field.admits, hpart] using h
      rw [hpart, lookup_setEntry, if_pos rfl, Option.bind_some, lookup_setAt hinside]
      cases below.entries.lookup f.part <;> rfl
    · rw [lookup_setEntry_of_ne (Ne.symm hpart), if_neg hpart, Option.none_or]

/-- A source laid over a tree gives its own values to some fields, and leaves the others as they were. -/
theorem leaf?_layer (h : source.Regular) (below : Tree) (f : Field) :
    (source.layer below).leaf? f = (source.given? f).or (below.leaf? f) := by
  have hentries := List.all_eq_true.1 (h f)
  rw [layer, given?]
  generalize source.entries = es at hentries
  induction es generalizing below with
  | nil => rfl
  | cons e rest ih =>
    have hrest := ih (setAt e.2 (KeyPath.ofKey e.1) below) fun e he => hentries e (List.mem_cons_of_mem _ he)
    rw [List.foldl_cons, hrest, leaf?_setAt (hentries e List.mem_cons_self), List.filterMap_cons]
    cases f.given? (KeyPath.ofKey e.1) e.2 with
    | none => rfl
    | some v => rw [getLast?_cons_or, Option.or_assoc]

end Tree

variable {k part name : String} {f : Field} {cs rest : List Char} {step : Step} {fuel : Nat}

namespace KeyPath

theorem readName?_eq_some (h : readName? cs = some (step, rest)) :
    ∃ name : String, step = .key name ∧ cs = name.toList ++ rest := by
  simp only [readName?] at h
  split at h
  · cases h
  · cases h
    refine ⟨_, rfl, ?_⟩
    rw [String.toList_ofList, List.takeWhile_append_dropWhile]

theorem readSteps?_eq_nil (h : readSteps? fuel cs = some []) : cs = [] := by
  unfold readSteps? at h
  split at h
  · rfl
  · simp [Option.bind_eq_some_iff] at h
  · simp [Option.bind_eq_some_iff] at h
  · cases h

theorem readIndex?_eq_some (h : readIndex? cs = some (step, rest)) : ∃ n, step = .index n := by
  unfold readIndex? at h
  dsimp only at h
  split at h
  · rw [Option.ite_none_right_eq_some] at h
    exact ⟨_, (Prod.mk.inj (Option.some.inj h.2)).1.symm⟩
  · cases h

theorem toList_of_readSteps? (h : readSteps? fuel cs = some [.key name]) : cs = '.' :: name.toList := by
  unfold readSteps? at h
  split at h
  · cases h
  · simp only [Option.bind_eq_bind, Option.pure_def, Option.bind_eq_some_iff, Option.some.injEq,
      List.cons.injEq] at h
    obtain ⟨⟨step, rest⟩, hname, steps, hsteps, rfl, rfl⟩ := h
    obtain ⟨n, hn, rfl⟩ := readName?_eq_some hname
    cases hn
    have hrest : rest = [] := readSteps?_eq_nil hsteps
    rw [hrest, List.append_nil]
  · simp only [Option.bind_eq_bind, Option.pure_def, Option.bind_eq_some_iff, Option.some.injEq,
      List.cons.injEq] at h
    obtain ⟨⟨step, rest⟩, hindex, steps, -, rfl, -⟩ := h
    obtain ⟨n, hn⟩ := readIndex?_eq_some hindex
    cases hn
  · cases h

/-- A key of two names is the names with a dot between them. -/
theorem toList_of_ofKey (h : ofKey k = [.key part, .key name]) :
    k.toList = part.toList ++ '.' :: name.toList := by
  unfold ofKey at h
  cases hread : readName? k.toList with
  | none => simp [hread] at h
  | some first =>
    obtain ⟨first, rest⟩ := first
    obtain ⟨p, rfl, hkey⟩ := readName?_eq_some hread
    cases hsteps : readSteps? rest.length rest with
    | none => simp [hread, hsteps] at h
    | some steps =>
      simp only [hread, hsteps, Option.bind_eq_bind, Option.bind_some, Option.pure_def, Option.getD_some,
        List.cons.injEq, Step.key.injEq] at h
      obtain ⟨rfl, rfl⟩ := h
      rw [hkey, toList_of_readSteps? hsteps]

end KeyPath

namespace Environment

theorem dotted_eq_append {a b : List Char} (ha : '.' ∉ a) (h : dotted cs = a ++ '.' :: b) : ∃ tail,
    (cs = a ++ '_' :: '_' :: tail ∨ cs = a ++ '.' :: tail) ∧ dotted tail = b := by
  fun_induction dotted cs generalizing a with
  | case1 cs ih =>
    cases a with
    | nil => exact ⟨cs, .inl rfl, (List.cons.inj h).2⟩
    | cons c a => exact absurd ((List.cons.inj h).1 ▸ List.mem_cons_self) ha
  | case2 c cs hother ih =>
    cases a with
    | nil =>
      obtain ⟨rfl, hb⟩ := List.cons.inj h
      exact ⟨cs, .inr rfl, hb⟩
    | cons c' a =>
      obtain ⟨rfl, hrest⟩ := List.cons.inj h
      obtain ⟨tail, hcs, hb⟩ := ih (fun hmem => ha (List.mem_cons_of_mem _ hmem)) hrest
      refine ⟨tail, ?_, hb⟩
      rcases hcs with rfl | rfl
      · exact .inl rfl
      · exact .inr rfl
  | case3 => simp at h

theorem eq_of_dotted {a : List Char} (ha : '.' ∉ a) (h : dotted cs = a) : cs = a := by
  fun_induction dotted cs generalizing a with
  | case1 cs ih => exact absurd (h ▸ List.mem_cons_self) ha
  | case2 c cs hother ih =>
    subst h
    exact congrArg (c :: ·) (ih (fun hmem => ha (List.mem_cons_of_mem _ hmem)) rfl)
  | case3 => exact h

theorem dotted_append {a : List Char} (ha : '_' ∉ a) (cs : List Char) : dotted (a ++ cs) = a ++ dotted cs := by
  induction a with
  | nil => rfl
  | cons c a ih =>
    rw [List.mem_cons, not_or] at ha
    rw [List.cons_append, dotted, ih ha.2, List.cons_append]
    rintro _ rfl _
    exact ha.1 rfl

theorem key?_eq_some_iff : key? name = some k ↔
    ∃ rest, (Text.lower name).toList = "watch__".toList ++ rest ∧ String.ofList (dotted rest) = k := by
  rw [key?, Option.map_eq_some_iff]
  exact exists_congr fun rest => and_congr_left' Text.isPrefixOf?_eq_some_iff

theorem lowerChar_of_mem_key (h : key? name = some k) {c : Char} (hc : c ∈ k.toList) :
    Text.lowerChar c = c := by
  obtain ⟨rest, hname, rfl⟩ := key?_eq_some_iff.1 h
  rw [String.toList_ofList] at hc
  have hmem : c = '.' ∨ c ∈ rest := by
    clear hname h
    fun_induction dotted rest with
    | case1 cs ih =>
      rcases List.mem_cons.1 hc with hc | hc
      · exact .inl hc
      · exact (ih hc).imp_right fun hc => List.mem_cons_of_mem _ (List.mem_cons_of_mem _ hc)
    | case2 x cs hother ih =>
      rcases List.mem_cons.1 hc with rfl | hc
      · exact .inr List.mem_cons_self
      · exact (ih hc).imp_right (List.mem_cons_of_mem _)
    | case3 => cases hc
  rcases hmem with rfl | hc
  · decide
  · have hlower : c ∈ (Text.lower name).toList := hname ▸ List.mem_append_right _ hc
    rw [Text.lower, String.toList_ofList] at hlower
    obtain ⟨x, -, rfl⟩ := List.mem_map.1 hlower
    exact Text.lowerChar_lowerChar x

end Environment

namespace Field

/-- The key that leads to a field. -/
def key (f : Field) : String := f.part ++ "." ++ f.name

/-- Whether a variable is the one of a field, as `WATCH__LISTEN__DATABASE`, in any case. A dot may stand for
the two underscores after the section. -/
def isSpelled (f : Field) (name : String) : Bool :=
  Text.lower name = "watch__" ++ f.part ++ "__" ++ f.name ||
    Text.lower name = "watch__" ++ f.part ++ "." ++ f.name

theorem ofKey_key (f : Field) : KeyPath.ofKey f.key = [.key f.part, .key f.name] := by
  cases f <;> decide +kernel

theorem lower_part (f : Field) : Text.lower f.part = f.part := by
  cases f <;> decide +kernel

theorem lower_name (f : Field) : Text.lower f.name = f.name := by
  cases f <;> decide +kernel

theorem dot_not_mem (f : Field) : '.' ∉ f.part.toList ∧ '.' ∉ f.name.toList := by
  cases f <;> decide +kernel

theorem underscore_not_mem (f : Field) : '_' ∉ f.part.toList := by
  cases f <;> decide +kernel

theorem dotted_name (f : Field) : Environment.dotted f.name.toList = f.name.toList := by
  cases f <;> rfl

theorem isSpelled_iff : f.isSpelled name = true ↔ Environment.key? name = some f.key := by
  have hspelled : f.isSpelled name = true ↔
      (Text.lower name).toList = "watch__".toList ++ (f.part.toList ++ '_' :: '_' :: f.name.toList) ∨
        (Text.lower name).toList = "watch__".toList ++ (f.part.toList ++ '.' :: f.name.toList) := by
    rw [isSpelled, Bool.or_eq_true, decide_eq_true_eq, decide_eq_true_eq, ← String.toList_inj,
      ← String.toList_inj]
    simp
  have hkey : f.key = String.ofList (f.part.toList ++ '.' :: f.name.toList) := by
    rw [← String.toList_inj, key]
    simp
  rw [hspelled, Environment.key?_eq_some_iff, hkey]
  constructor
  · rintro (h | h)
    · refine ⟨_, h, ?_⟩
      rw [Environment.dotted_append f.underscore_not_mem, Environment.dotted, f.dotted_name]
    · refine ⟨_, h, ?_⟩
      rw [Environment.dotted_append f.underscore_not_mem, Environment.dotted, f.dotted_name]
      simp
  · rintro ⟨rest, hname, hdotted⟩
    obtain ⟨tail, hrest, htail⟩ :=
      Environment.dotted_eq_append f.dot_not_mem.1 (String.ofList_injective hdotted)
    obtain rfl := Environment.eq_of_dotted f.dot_not_mem.2 htail
    rw [hname]
    exact hrest.imp (congrArg _) (congrArg _)

end Field

namespace Environment

/-- What a variable holds is no table. -/
theorem entries_value (s : String) : (value s).entries = [] := by
  unfold value
  dsimp only
  split
  · rfl
  split
  · rfl
  cases hint : (Text.readInt? s).bind Tree.ofInt? with
  | some t =>
    obtain ⟨n, -, hn⟩ := Option.bind_eq_some_iff.1 hint
    obtain ⟨-, ht⟩ := Option.ite_none_right_eq_some.1 hn
    cases ht
    rfl
  | none => cases Binary64.ofText? s <;> rfl

theorem given?_ofKey (h : key? name = some k) (s : String) :
    f.given? (KeyPath.ofKey k) (value s) = if f.isSpelled name then some (value s) else none := by
  split
  · next hspelled =>
    rw [Field.isSpelled_iff, h] at hspelled
    rw [Option.some.inj hspelled, Field.ofKey_key, Field.given?, if_pos f.lower_part, Field.givenInside?,
      if_pos f.lower_name]
  · next hspelled =>
    rw [Option.eq_none_iff_forall_ne_some]
    intro v hgiven
    generalize hsteps : KeyPath.ofKey k = steps at hgiven
    unfold Field.given? at hgiven
    split at hgiven
    · next _ part steps =>
      obtain ⟨hpart, hinside⟩ := Option.ite_none_right_eq_some.1 hgiven
      unfold Field.givenInside? at hinside
      split at hinside
      · rw [entries_value] at hinside
        cases hinside
      · next _ name' =>
        -- the key is in lower case already, so it is the field's own
        obtain ⟨hname, -⟩ := Option.ite_none_right_eq_some.1 hinside
        have hk := KeyPath.toList_of_ofKey hsteps
        have hfixed {c : Char} (hc : c ∈ part.toList ++ '.' :: name'.toList) : Text.lowerChar c = c :=
          lowerChar_of_mem_key h (hk ▸ hc)
        rw [Text.lower_eq_self fun c hc => hfixed (List.mem_append_left _ hc)] at hpart
        rw [Text.lower_eq_self fun c hc => hfixed (List.mem_append_right _ (List.mem_cons_of_mem _ hc))] at hname
        refine hspelled (Field.isSpelled_iff.2 (h.trans (congrArg some (String.toList_inj.1 ?_))))
        rw [hk, hpart, hname, Field.key]
        simp
      · cases hinside
    · cases hgiven

/-- The variable of a field, if it is set and not empty. The last one counts. -/
def valueOf? (env : Environment) (f : Field) : Option String :=
  (env.filterMap fun (name, s) => if f.isSpelled name && !s.isEmpty then some s else none).getLast?

/-- An environment gives a field the value of its variable. -/
theorem given?_tree (env : Environment) (f : Field) : env.tree.given? f = (env.valueOf? f).map value := by
  have hentry (name s : String) :
      ((if s.isEmpty then none else (key? name).map fun k => (k, value s)).bind fun e =>
        f.given? (KeyPath.ofKey e.1) e.2) =
      (if f.isSpelled name && !s.isEmpty then some s else none).map value := by
    cases hempty : s.isEmpty with
    | true => simp
    | false =>
      cases hkey : key? name with
      | some k =>
        simp only [Bool.false_eq_true, if_false, Option.map_some, Option.bind_some, given?_ofKey hkey]
        cases f.isSpelled name <;> rfl
      | none =>
        have hnot : ¬ f.isSpelled name = true := by simp [Field.isSpelled_iff, hkey]
        simp [hnot]
  rw [Tree.given?, tree, Tree.entries_table, List.filterMap_filterMap, valueOf?, ← List.getLast?_map,
    List.map_filterMap]
  simp only [hentry]

end Environment

/-- What is read from a file, if there is one. -/
def source? : Option File → Option Tree
  | none => some (.table [])
  | some .missing => none
  | some (.text content) => File.read? content

/-- What environment and source have for a field. The environment has the last word. -/
def winner? (env : Environment) (source : Tree) (f : Field) : Option Tree :=
  ((env.valueOf? f).map Environment.value).or (source.given? f)

/-- Whether each value that counts can be read as its field. -/
def Readable (env : Environment) (source : Tree) : Prop :=
  ∀ f : Field, (winner? env source f).all (fun v => (f.read? v).isSome) = true

instance (env : Environment) (source : Tree) : Decidable (Readable env source) :=
  inferInstanceAs (Decidable (∀ f : Field, (winner? env source f).all _ = true))

/-- What a field has in the end: what environment or source give it, else what it had before. -/
def outcome? (env : Environment) (source : Tree) (c : Settings) (f : Field) : Option f.Value :=
  (winner? env source f).elim (some (f.get c)) f.read?

/-- Settings that have the outcome in each field. -/
def Layered (env : Environment) (source : Tree) (c s : Settings) : Prop :=
  ∀ f : Field, outcome? env source c f = some (f.get s)

/-- Settings that were loaded in an environment, perhaps with files laid over them afterwards. -/
inductive Loaded (env : Environment) : Settings → Prop
  | load {file? : Option File} {s : Settings} : load env file? = .ok s → Loaded env s
  | withFile {file : File} {c s : Settings} : Loaded env c → withFile env file c = .ok s → Loaded env s

variable {env : Environment} {file? : Option File} {source : Tree} {c s : Settings}

theorem elim_eq_ok_iff {ε α : Type} {o : Option α} {e : ε} {a : α} :
    (o.elim (.error e) .ok : Except ε α) = .ok a ↔ o = some a := by
  cases o <;> simp

theorem bind_eq_ok_iff {ε α β : Type} {x : Except ε α} {g : α → Except ε β} {b : β} :
    x >>= g = .ok b ↔ ∃ a, x = .ok a ∧ g a = .ok b := by
  cases x <;> simp [bind, Except.bind]

theorem overlay_eq_ok_iff : c.overlay env file? = .ok s ↔ ∃ base source,
    c.tree? = some base ∧ source? file? = some source ∧
      (env.tree.layer (source.layer base)).settings? = some s := by
  unfold overlay
  simp only [bind_eq_ok_iff, elim_eq_ok_iff]
  refine exists_congr fun base => ?_
  rw [exists_and_left]
  refine and_congr_right' ?_
  match file? with
  | none => simp [source?, bind_eq_ok_iff, elim_eq_ok_iff]
  | some .missing => simp [source?, File.tree, bind, Except.bind]
  | some (.text content) => simp only [source?, File.tree, bind_eq_ok_iff, elim_eq_ok_iff]

theorem leaf?_layers (henv : env.tree.Regular) (hsource : source.Regular) (base : Tree) (f : Field) :
    (env.tree.layer (source.layer base)).leaf? f = (winner? env source f).or (base.leaf? f) := by
  rw [Tree.leaf?_layer henv, Tree.leaf?_layer hsource, Environment.given?_tree, winner?, Option.or_assoc]

theorem exists_overlay (henv : env.tree.Regular) (hfile : source? file? = some source)
    (hsource : source.Regular) (hreadable : Readable env source) (hfits : c.Fits) :
    ∃ s, c.overlay env file? = .ok s ∧ Layered env source c s := by
  obtain ⟨base, hbase, hown⟩ := hfits.exists_tree
  have hfield (f : Field) : ∃ v, (env.tree.layer (source.layer base)).leaf? f = some v ∧
      ∃ x, f.read? v = some x ∧ outcome? env source c f = some x := by
    rw [leaf?_layers henv hsource, outcome?]
    have hread := hreadable f
    cases hwinner : winner? env source f with
    | none =>
      obtain ⟨v, hv, hc⟩ := hown f
      exact ⟨v, hv, _, hc, rfl⟩
    | some v =>
      rw [hwinner] at hread
      obtain ⟨x, hx⟩ := Option.isSome_iff_exists.1 hread
      exact ⟨v, rfl, x, hx, hx⟩
  obtain ⟨values, hvalues⟩ := Classical.skolem.1 hfield
  obtain ⟨x, hx⟩ := Classical.skolem.1 fun f => (hvalues f).2
  have hsettings := Tree.settings?_eq_some (s := ofFields x) (fun f => (hvalues f).1) fun f =>
    (hx f).1.trans (congrArg some (get_ofFields x f).symm)
  refine ⟨ofFields x, overlay_eq_ok_iff.2 ⟨base, source, hbase, hfile, hsettings⟩, fun f => ?_⟩
  rw [get_ofFields]
  exact (hx f).2

/-- Loaded settings have what the environment gives. -/
theorem Loaded.read?_variable (h : Loaded env c) (henv : env.tree.Regular) {value : String}
    (hvalue : env.valueOf? f = some value) : f.read? (Environment.value value) = some (f.get c) := by
  have hoverlay : ∃ (before : Settings) (file? : Option File), before.overlay env file? = .ok c := by
    cases h with
    | load h => exact ⟨_, _, h⟩
    | withFile _ h => exact ⟨_, _, h⟩
  obtain ⟨before, file?, hoverlay⟩ := hoverlay
  obtain ⟨base, source, -, -, hsettings⟩ := overlay_eq_ok_iff.1 hoverlay
  refine Tree.read?_of_settings? hsettings ?_
  rw [Tree.leaf?_layer henv, Environment.given?_tree, hvalue]
  rfl

/-- The layers of the settings, field by field: a variable comes before the file, and the file before what
the field had. A file that says nothing changes nothing. -/
theorem layers_prevail (henv : env.tree.Regular) (hfile : source? file? = some source)
    (hsource : source.Regular) (hreadable : Readable env source) :
    (∃ s, load env file? = .ok s ∧ Layered env source .default s) ∧
      ∀ c : Settings, c.Fits → ∀ file, file? = some file →
        (∃ s, withFile env file c = .ok s ∧ Layered env source c s) ∧
          ((∀ f, source.given? f = none) → Loaded env c → withFile env file c = .ok c) := by
  refine ⟨exists_overlay henv hfile hsource hreadable (by decide), ?_⟩
  rintro c hfits file rfl
  obtain ⟨s, hs, hlayered⟩ := exists_overlay henv hfile hsource hreadable hfits
  refine ⟨⟨s, hs, hlayered⟩, fun hnothing hloaded => ?_⟩
  have hsame : s = c := ext_get fun f => by
    have hf := hlayered f
    rw [outcome?, winner?, hnothing f, Option.or_none] at hf
    cases hvalue : env.valueOf? f with
    | none =>
      rw [hvalue] at hf
      exact (Option.some.inj hf).symm
    | some value =>
      rw [hvalue] at hf
      exact Option.some.inj (hf.symm.trans (hloaded.read?_variable henv hvalue))
  rw [hsame] at hs
  exact hs

/-- A file that sets both bounds of the backoff, one of them below a variable. An empty variable does not
count. -/
theorem layers_prevail_backoff : ∃ s,
    withFile [("WATCH__BACKOFF__MAX_DELAY_MS", "4000"), ("watch__backoff__jitter", "")]
        (.text "[backoff]\nbase_delay_ms = 250\nmax_delay_ms = 2000\n") .default = .ok s ∧
      s.backoff.baseDelayMs = 250 ∧ s.backoff.maxDelayMs = 4000 ∧
      s.backoff.jitter = BackoffPolicy.default.jitter := by
  let env : Environment := [("WATCH__BACKOFF__MAX_DELAY_MS", "4000"), ("watch__backoff__jitter", "")]
  have hread : ((source? (some (.text "[backoff]\nbase_delay_ms = 250\nmax_delay_ms = 2000\n"))).map
      fun source => decide (env.tree.Regular ∧ source.Regular ∧ Readable env source ∧
        outcome? env source .default .baseDelayMs = some 250 ∧
        outcome? env source .default .maxDelayMs = some 4000 ∧
        outcome? env source .default .jitter = some BackoffPolicy.default.jitter)) = some true := by
    decide +kernel
  obtain ⟨source, hfile, hchecked⟩ := Option.map_eq_some_iff.1 hread
  obtain ⟨henv, hsource, hreadable, hbase, hmax, hjitter⟩ := of_decide_eq_true hchecked
  obtain ⟨-, hlayers⟩ := layers_prevail henv hfile hsource hreadable
  obtain ⟨⟨s, hs, hlayered⟩, -⟩ := hlayers .default (by decide) _ rfl
  refine ⟨s, hs, ?_, ?_, ?_⟩
  · exact Option.some.inj ((hlayered .baseDelayMs).symm.trans hbase)
  · exact Option.some.inj ((hlayered .maxDelayMs).symm.trans hmax)
  · exact Option.some.inj ((hlayered .jitter).symm.trans hjitter)

/-- A list for a section takes the place of the whole section, so what the section had is lost. -/
theorem list_replaces_section :
    ((load [] (some (.text "[network]\nauth_token = \"t\"\n"))).toOption.bind fun c =>
      (withFile [] (.text "network = []\n") c).toOption.map fun s =>
        (c.network.authToken, s.network.authToken)) = some (some "t", none) ∧
    ((load [("WATCH__NETWORK[0]", "http://h")]
      (some (.text "[network]\nauth_token = \"t\"\n"))).toOption.map fun s =>
        (s.network.endpoint, s.network.authToken)) = some ("http://h", none) := by
  decide +kernel

end Settings

end LiveQuery
