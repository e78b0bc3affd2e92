import LiveQuery.Settings.Load

namespace LiveQuery.Settings

/-- The parts of the settings that a source can give one by one. -/
inductive Field where
  | database
  | requestBufferSize
  | maxFilterMismatches
  | baseDelayMs
  | maxDelayMs
  | multiplier
  | jitter
  | endpoint
  | connectTimeoutMs
  | tcpKeepaliveSecs
  | http2KeepAliveIntervalSecs
  | http2KeepAliveTimeoutSecs
  | enableCompression
  | authToken
  deriving DecidableEq

namespace Field

def all : List Field :=
  [database, requestBufferSize, maxFilterMismatches, baseDelayMs, maxDelayMs, multiplier, jitter, endpoint,
    connectTimeoutMs, tcpKeepaliveSecs, http2KeepAliveIntervalSecs, http2KeepAliveTimeoutSecs,
    enableCompression, authToken]

theorem mem_all (f : Field) : f ∈ all := by cases f <;> decide

instance {p : Field → Prop} [DecidablePred p] : Decidable (∀ f, p f) :=
  decidable_of_iff (∀ f ∈ all, p f) ⟨fun h f => h f (mem_all f), fun h f _ => h f⟩

def part : Field → String
  | database | requestBufferSize | maxFilterMismatches => "listen"
  | baseDelayMs | maxDelayMs | multiplier | jitter => "backoff"
  | endpoint | connectTimeoutMs | tcpKeepaliveSecs | http2KeepAliveIntervalSecs
  | http2KeepAliveTimeoutSecs | enableCompression | authToken => "network"

def name : Field → String
  | database => "database"
  | requestBufferSize => "request_buffer_size"
  | maxFilterMismatches => "max_filter_mismatches"
  | baseDelayMs => "base_delay_ms"
  | maxDelayMs => "max_delay_ms"
  | multiplier => "multiplier"
  | jitter => "jitter"
  | endpoint => "endpoint"
  | connectTimeoutMs => "connect_timeout_in_ms"
  | tcpKeepaliveSecs => "tcp_keepalive_in_secs"
  | http2KeepAliveIntervalSecs => "http2_keep_alive_interval_in_secs"
  | http2KeepAliveTimeoutSecs => "http2_keep_alive_timeout_in_secs"
  | enableCompression => "enable_compression"
  | authToken => "auth_token"

abbrev Value : Field → Type
  | database | endpoint => String
  | requestBufferSize | baseDelayMs | maxDelayMs | connectTimeoutMs | tcpKeepaliveSecs
  | http2KeepAliveIntervalSecs | http2KeepAliveTimeoutSecs => UInt64
  | maxFilterMismatches => UInt32
  | multiplier | jitter => Binary64
  | enableCompression => Bool
  | authToken => Option String

def get (s : Settings) : (f : Field) → f.Value
  | database => s.listen.database
  | requestBufferSize => s.listen.requestBufferSize
  | maxFilterMismatches => s.listen.maxFilterMismatches
  | baseDelayMs => s.backoff.baseDelayMs
  | maxDelayMs => s.backoff.maxDelayMs
  | multiplier => s.backoff.multiplier
  | jitter => s.backoff.jitter
  | endpoint => s.network.endpoint
  | connectTimeoutMs => s.network.connectTimeoutMs
  | tcpKeepaliveSecs => s.network.tcpKeepaliveSecs
  | http2KeepAliveIntervalSecs => s.network.http2KeepAliveIntervalSecs
  | http2KeepAliveTimeoutSecs => s.network.http2KeepAliveTimeoutSecs
  | enableCompression => s.network.enableCompression
  | authToken => s.network.authToken

/-- What a value stands for in a field. -/
def read? : (f : Field) → Tree → Option f.Value
  | database | endpoint => Tree.string?
  | requestBufferSize | baseDelayMs | maxDelayMs | connectTimeoutMs | tcpKeepaliveSecs
  | http2KeepAliveIntervalSecs | http2KeepAliveTimeoutSecs => Tree.uint64?
  | maxFilterMismatches => Tree.uint32?
  | multiplier | jitter => Tree.float?
  | enableCompression => Tree.bool?
  | authToken => Tree.optionalString?

end Field

/-- The settings with these values. -/
def ofFields (x : (f : Field) → f.Value) : Settings where
  listen := ⟨x .database, x .requestBufferSize, x .maxFilterMismatches⟩
  backoff := ⟨x .baseDelayMs, x .maxDelayMs, x .multiplier, x .jitter⟩
  network := ⟨x .endpoint, x .connectTimeoutMs, x .tcpKeepaliveSecs, x .http2KeepAliveIntervalSecs,
    x .http2KeepAliveTimeoutSecs, x .enableCompression, x .authToken⟩

variable {s c : Settings} {f : Field} {t v : Tree} {name : String}

theorem get_ofFields (x : (f : Field) → f.Value) (f : Field) : f.get (ofFields x) = x f := by
  cases f <;> rfl

theorem ext_get (h : ∀ f : Field, f.get s = f.get c) : s = c := by
  have hs (s : Settings) : s = ofFields fun f => f.get s := rfl
  rw [hs s, hs c, funext h]

namespace Tree

/-- The value of a field in a tree of tables. -/
def leaf? (t : Tree) (f : Field) : Option Tree :=
  (t.entries.lookup f.part).bind fun part => part.entries.lookup f.name

/-- A field that a section has by name is read by name. -/
theorem typed_of_lookup {α : Type} {part : Tree} (h : part.entries.lookup name = some v) (position : Nat)
    (default : α) (read? : Tree → Option α) : part.typed position name default read? = read? v := by
  unfold typed field?
  cases part with
  | table => simp [h]
  | nil | bool | int | float | text | list => cases h

theorem isSection_of_lookup {part : Tree} (h : part.entries.lookup name = some v) :
    part.isSection = true := by
  cases part with
  | table | list => rfl
  | nil | bool | int | float | text => cases h

theorem listen?_eq_some_iff {part : Tree} {l : ListenSettings} : part.listen? = some l ↔
    part.isSection = true ∧
      part.typed 0 "database" ListenSettings.default.database string? = some l.database ∧
      part.typed 1 "request_buffer_size" ListenSettings.default.requestBufferSize uint64? =
        some l.requestBufferSize ∧
      part.typed 2 "max_filter_mismatches" ListenSettings.default.maxFilterMismatches uint32? =
        some l.maxFilterMismatches := by
  unfold listen?
  cases part.isSection with
  | false => simp
  | true =>
    simp only [Bool.not_true, Bool.false_eq_true, if_false, Option.bind_eq_bind, Option.pure_def,
      Option.bind_eq_some_iff, Option.some.injEq, true_and]
    constructor
    · rintro ⟨_, h₀, _, h₁, _, h₂, rfl⟩
      exact ⟨h₀, h₁, h₂⟩
    · rintro ⟨h₀, h₁, h₂⟩
      exact ⟨_, h₀, _, h₁, _, h₂, rfl⟩

theorem backoff?_eq_some_iff {part : Tree} {p : BackoffPolicy} : part.backoff? = some p ↔
    part.isSection = true ∧
      part.typed 0 "base_delay_ms" BackoffPolicy.default.baseDelayMs uint64? = some p.baseDelayMs ∧
      part.typed 1 "max_delay_ms" BackoffPolicy.default.maxDelayMs uint64? = some p.maxDelayMs ∧
      part.typed 2 "multiplier" BackoffPolicy.default.multiplier float? = some p.multiplier ∧
      part.typed 3 "jitter" BackoffPolicy.default.jitter float? = some p.jitter := by
  unfold backoff?
  cases part.isSection with
  | false => simp
  | true =>
    simp only [Bool.not_true, Bool.false_eq_true, if_false, Option.bind_eq_bind, Option.pure_def,
      Option.bind_eq_some_iff, Option.some.injEq, true_and]
    constructor
    · rintro ⟨_, h₀, _, h₁, _, h₂, _, h₃, rfl⟩
      exact ⟨h₀, h₁, h₂, h₃⟩
    · rintro ⟨h₀, h₁, h₂, h₃⟩
      exact ⟨_, h₀, _, h₁, _, h₂, _, h₃, rfl⟩

theorem network?_eq_some_iff {part : Tree} {n : NetworkSettings} : part.network? = some n ↔
    part.isSection = true ∧
      part.typed 0 "endpoint" NetworkSettings.default.endpoint string? = some n.endpoint ∧
      part.typed 1 "connect_timeout_in_ms" NetworkSettings.default.connectTimeoutMs uint64? =
        some n.connectTimeoutMs ∧
      part.typed 2 "tcp_keepalive_in_secs" NetworkSettings.default.tcpKeepaliveSecs uint64? =
        some n.tcpKeepaliveSecs ∧
      part.typed 3 "http2_keep_alive_interval_in_secs"
        NetworkSettings.default.http2KeepAliveIntervalSecs uint64? = some n.http2KeepAliveIntervalSecs ∧
      part.typed 4 "http2_keep_alive_timeout_in_secs"
        NetworkSettings.default.http2KeepAliveTimeoutSecs uint64? = some n.http2KeepAliveTimeoutSecs ∧
      part.typed 5 "enable_compression" NetworkSettings.default.enableCompression bool? =
        some n.enableCompression ∧
      part.typed 6 "auth_token" NetworkSettings.default.authToken optionalString? = some n.authToken := by
  unfold network?
  cases part.isSection with
  | false => simp
  | true =>
    simp only [Bool.not_true, Bool.false_eq_true, if_false, Option.bind_eq_bind, Option.pure_def,
      Option.bind_eq_some_iff, Option.some.injEq, true_and]
    constructor
    · rintro ⟨_, h₀, _, h₁, _, h₂, _, h₃, _, h₄, _, h₅, _, h₆, rfl⟩
      exact ⟨h₀, h₁, h₂, h₃, h₄, h₅, h₆⟩
    · rintro ⟨h₀, h₁, h₂, h₃, h₄, h₅, h₆⟩
      exact ⟨_, h₀, _, h₁, _, h₂, _, h₃, _, h₄, _, h₅, _, h₆, rfl⟩

theorem settings?_eq_some_iff : t.settings? = some s ↔
    t.typed 0 "listen" .default listen? = some s.listen ∧
      t.typed 1 "backoff" .default backoff? = some s.backoff ∧
      t.typed 2 "network" .default network? = some s.network := by
  unfold settings?
  simp only [Option.bind_eq_bind, Option.pure_def, Option.bind_eq_some_iff, Option.some.injEq]
  constructor
  · rintro ⟨_, h₀, _, h₁, _, h₂, rfl⟩
    exact ⟨h₀, h₁, h₂⟩
  · rintro ⟨h₀, h₁, h₂⟩
    exact ⟨_, h₀, _, h₁, _, h₂, rfl⟩

theorem leaf?_of_lookup {part : Tree} (h : t.entries.lookup f.part = some part) :
    t.leaf? f = part.entries.lookup f.name := by
  rw [leaf?, h, Option.bind_some]

/-- Typed settings have for a field what its value in the tree stands for. -/
theorem read?_of_settings? (h : t.settings? = some s) (hleaf : t.leaf? f = some v) :
    f.read? v = some (f.get s) := by
  obtain ⟨part, hpart, hv⟩ := Option.bind_eq_some_iff.1 hleaf
  obtain ⟨hlisten, hbackoff, hnetwork⟩ := settings?_eq_some_iff.1 h
  have hread {value : f.Value} {default : f.Value} {position : Nat}
      (h : part.typed position f.name default f.read? = some value) : f.read? v = some value :=
    (typed_of_lookup hv position default f.read?).symm.trans h
  have hl (h : t.entries.lookup "listen" = some part) :=
    (listen?_eq_some_iff.1 ((typed_of_lookup h 0 .default _).symm.trans hlisten)).2
  have hb (h : t.entries.lookup "backoff" = some part) :=
    (backoff?_eq_some_iff.1 ((typed_of_lookup h 1 .default _).symm.trans hbackoff)).2
  have hn (h : t.entries.lookup "network" = some part) :=
    (network?_eq_some_iff.1 ((typed_of_lookup h 2 .default _).symm.trans hnetwork)).2
  cases f with
  | database => exact hread (hl hpart).1
  | requestBufferSize => exact hread (hl hpart).2.1
  | maxFilterMismatches => exact hread (hl hpart).2.2
  | baseDelayMs => exact hread (hb hpart).1
  | maxDelayMs => exact hread (hb hpart).2.1
  | multiplier => exact hread (hb hpart).2.2.1
  | jitter => exact hread (hb hpart).2.2.2
  | endpoint => exact hread (hn hpart).1
  | connectTimeoutMs => exact hread (hn hpart).2.1
  | tcpKeepaliveSecs => exact hread (hn hpart).2.2.1
  | http2KeepAliveIntervalSecs => exact hread (hn hpart).2.2.2.1
  | http2KeepAliveTimeoutSecs => exact hread (hn hpart).2.2.2.2.1
  | enableCompression => exact hread (hn hpart).2.2.2.2.2.1
  | authToken => exact hread (hn hpart).2.2.2.2.2.2

/-- A tree with all fields gives the settings that have for each field what its value stands for. -/
theorem settings?_eq_some {values : Field → Tree} (h : ∀ f, t.leaf? f = some (values f))
    (hread : ∀ f : Field, f.read? (values f) = some (f.get s)) : t.settings? = some s := by
  obtain ⟨listen, hlisten, -⟩ := Option.bind_eq_some_iff.1 (h .database)
  obtain ⟨backoff, hbackoff, -⟩ := Option.bind_eq_some_iff.1 (h .multiplier)
  obtain ⟨network, hnetwork, -⟩ := Option.bind_eq_some_iff.1 (h .endpoint)
  have hfield {part : Tree} (f : Field) (hpart : t.entries.lookup f.part = some part) (position : Nat)
      (default : f.Value) : part.isSection = true ∧
        part.typed position f.name default f.read? = some (f.get s) := by
    have hlookup := (leaf?_of_lookup hpart).symm.trans (h f)
    exact ⟨isSection_of_lookup hlookup, (typed_of_lookup hlookup position default _).trans (hread f)⟩
  refine settings?_eq_some_iff.2 ⟨?_, ?_, ?_⟩
  · refine (typed_of_lookup hlisten 0 _ _).trans (listen?_eq_some_iff.2 ⟨(hfield .database hlisten 0 "").1, ?_⟩)
    exact ⟨(hfield .database hlisten 0 _).2, (hfield .requestBufferSize hlisten 1 _).2,
      (hfield .maxFilterMismatches hlisten 2 _).2⟩
  · refine (typed_of_lookup hbackoff 1 _ _).trans
      (backoff?_eq_some_iff.2 ⟨(hfield .baseDelayMs hbackoff 0 0).1, ?_⟩)
    exact ⟨(hfield .baseDelayMs hbackoff 0 _).2, (hfield .maxDelayMs hbackoff 1 _).2,
      (hfield .multiplier hbackoff 2 _).2, (hfield .jitter hbackoff 3 _).2⟩
  · refine (typed_of_lookup hnetwork 2 _ _).trans
      (network?_eq_some_iff.2 ⟨(hfield .endpoint hnetwork 0 "").1, ?_⟩)
    exact ⟨(hfield .endpoint hnetwork 0 _).2, (hfield .connectTimeoutMs hnetwork 1 _).2,
      (hfield .tcpKeepaliveSecs hnetwork 2 _).2, (hfield .http2KeepAliveIntervalSecs hnetwork 3 _).2,
      (hfield .http2KeepAliveTimeoutSecs hnetwork 4 _).2, (hfield .enableCompression hnetwork 5 _).2,
      (hfield .authToken hnetwork 6 _).2⟩

end Tree

/-- The numbers that a source gives as signed ones. -/
def integers (c : Settings) : List UInt64 :=
  [c.listen.requestBufferSize, c.backoff.baseDelayMs, c.backoff.maxDelayMs, c.network.connectTimeoutMs,
    c.network.tcpKeepaliveSecs, c.network.http2KeepAliveIntervalSecs, c.network.http2KeepAliveTimeoutSecs]

def Fits (c : Settings) : Prop := ∀ n ∈ c.integers, n.toNat < 0x8000000000000000

instance : Decidable c.Fits := List.decidableBAll _ c.integers

namespace Tree

theorem ofUInt64?_eq_some {n : UInt64} (h : n.toNat < 0x8000000000000000) :
    ofUInt64? n = some (int (.ofInt n.toNat)) := by
  have hfits : Text.fitsInt64 n.toNat = true := by
    simp only [Text.fitsInt64, Bool.and_eq_true, decide_eq_true_eq]
    omega
  rw [ofUInt64?, ofInt?, if_pos hfits]

theorem uint64?_int {n : UInt64} (h : n.toNat < 0x8000000000000000) :
    (int (.ofInt n.toNat)).uint64? = some n := by
  have hint : (Int64.ofInt n.toNat).toInt = n.toNat := Int64.toInt_ofInt_of_le (by omega) (by omega)
  have hpos : 0 ≤ Int64.ofInt n.toNat := by
    rw [Int64.le_iff_toInt_le, hint]
    exact Int.natCast_nonneg _
  rw [uint64?, if_pos hpos, hint, Int.toNat_natCast, UInt64.ofNat_toNat]

end Tree

/-- Settings turned into a tree and read again are the same. -/
theorem Fits.exists_tree (h : c.Fits) : ∃ base, c.tree? = some base ∧
    ∀ f : Field, ∃ v, base.leaf? f = some v ∧ f.read? v = some (f.get c) := by
  simp only [Fits, integers, List.forall_mem_cons, List.not_mem_nil, false_implies, implies_true,
    and_true] at h
  obtain ⟨h₀, h₁, h₂, h₃, h₄, h₅, h₆⟩ := h
  have hm : c.listen.maxFilterMismatches.toUInt64.toNat < 0x8000000000000000 := by
    have hlt := c.listen.maxFilterMismatches.toNat_lt
    rw [UInt32.toNat_toUInt64]
    omega
  simp only [tree?, Tree.ofUInt64?_eq_some h₀, Tree.ofUInt64?_eq_some h₁, Tree.ofUInt64?_eq_some h₂,
    Tree.ofUInt64?_eq_some h₃, Tree.ofUInt64?_eq_some h₄, Tree.ofUInt64?_eq_some h₅,
    Tree.ofUInt64?_eq_some h₆, Tree.ofUInt64?_eq_some hm, Option.bind_eq_bind, Option.bind_some,
    Option.pure_def, Option.some.injEq, exists_eq_left']
  intro f
  cases f with
  | database | multiplier | jitter | endpoint | enableCompression => exact ⟨_, rfl, rfl⟩
  | requestBufferSize => exact ⟨_, rfl, Tree.uint64?_int h₀⟩
  | maxFilterMismatches =>
    refine ⟨_, rfl, ?_⟩
    change Tree.uint32? _ = _
    rw [Tree.uint32?, Tree.uint64?_int hm]
    simpa [Field.get] using c.listen.maxFilterMismatches.toNat_lt
  | baseDelayMs => exact ⟨_, rfl, Tree.uint64?_int h₁⟩
  | maxDelayMs => exact ⟨_, rfl, Tree.uint64?_int h₂⟩
  | connectTimeoutMs => exact ⟨_, rfl, Tree.uint64?_int h₃⟩
  | tcpKeepaliveSecs => exact ⟨_, rfl, Tree.uint64?_int h₄⟩
  | http2KeepAliveIntervalSecs => exact ⟨_, rfl, Tree.uint64?_int h₅⟩
  | http2KeepAliveTimeoutSecs => exact ⟨_, rfl, Tree.uint64?_int h₆⟩
  | authToken =>
    refine ⟨_, rfl, ?_⟩
    change Tree.optionalString? _ = some c.network.authToken
    cases c.network.authToken <;> rfl

end LiveQuery.Settings
