import LiveQuery.Settings.Validation
import LiveQuery.Proofs.Path

namespace LiveQuery

/-- The name of a database in a project. -/
structure DatabaseName where
  project : String
  database : String
  isSegment_project : IsSegment project
  isSegment_database : IsSegment database

namespace DatabaseName

variable {n m : DatabaseName}

def text (n : DatabaseName) : String := "projects/" ++ n.project ++ "/databases/" ++ n.database

def segments (n : DatabaseName) : List String := ["projects", n.project, "databases", n.database]

theorem text_eq_intercalate (n : DatabaseName) : n.text = "/".intercalate n.segments := by
  rw [segments, String.intercalate_cons_cons, String.intercalate_cons_cons, String.intercalate_cons_cons,
    String.intercalate_singleton, text, ← String.toList_inj]
  simp

theorem isSegment_of_mem_segments (n : DatabaseName) : ∀ s ∈ n.segments, IsSegment s := by
  simp only [segments, List.forall_mem_cons, List.not_mem_nil, false_imp_iff, implies_true, and_true]
  exact ⟨by decide, n.isSegment_project, by decide, n.isSegment_database⟩

theorem slashParts_text (n : DatabaseName) : slashParts n.text = n.segments := by
  rw [text_eq_intercalate]
  exact slashParts_intercalate (List.cons_ne_nil _ _) fun s hs => (n.isSegment_of_mem_segments s hs).2

theorem slashPieces_text (n : DatabaseName) : slashPieces n.text = n.segments := by
  rw [slashPieces, slashParts_text, List.filter_eq_self]
  intro s hs
  exact decide_eq_true (n.isSegment_of_mem_segments s hs).1

theorem ext_segments (h : n.segments = m.segments) : n = m := by
  cases n
  cases m
  simp_all [segments]

end DatabaseName

theorem isDatabaseName_iff_slashParts (s : String) : isDatabaseName s = true ↔
    ∃ project database, slashParts s = ["projects", project, "databases", database] ∧
      project ≠ "" ∧ database ≠ "" := by
  unfold isDatabaseName
  constructor
  · intro h
    split at h
    · next projects project databases database hsplit =>
      simp only [Bool.and_eq_true, decide_eq_true_eq, Bool.not_eq_true', List.isEmpty_eq_false_iff] at h
      obtain ⟨⟨⟨rfl, rfl⟩, hproject⟩, hdatabase⟩ := h
      refine ⟨String.ofList project, String.ofList database, ?_, by simpa using hproject,
        by simpa using hdatabase⟩
      rw [slashParts_eq, hsplit]
      rfl
    · cases h
  · rintro ⟨project, database, hparts, hproject, hdatabase⟩
    rw [← map_toList_slashParts, hparts]
    simp [hproject, hdatabase]

theorem isDatabaseName_iff (s : String) : isDatabaseName s = true ↔ ∃ n : DatabaseName, n.text = s := by
  rw [isDatabaseName_iff_slashParts]
  constructor
  · rintro ⟨project, database, hparts, hproject, hdatabase⟩
    have hslash (part : String) (hpart : part ∈ slashParts s) : '/' ∉ part.toList :=
      slash_notMem_of_mem_slashParts hpart
    rw [hparts] at hslash
    refine ⟨⟨project, database, ⟨hproject, hslash project (by simp)⟩,
      ⟨hdatabase, hslash database (by simp)⟩⟩, ?_⟩
    rw [DatabaseName.text_eq_intercalate, DatabaseName.segments, ← hparts, intercalate_slashParts]
  · rintro ⟨n, rfl⟩
    exact ⟨n.project, n.database, n.slashParts_text, n.isSegment_project.1, n.isSegment_database.1⟩

theorem ListenSettings.complaint?_eq_none_iff (s : ListenSettings) : s.complaint? = none ↔
    s.requestBufferSize ≠ 0 ∧ ∃ n : DatabaseName, n.text = s.database := by
  rw [← isDatabaseName_iff, complaint?]
  by_cases hname : isDatabaseName s.database = true
  · by_cases hsize : s.requestBufferSize = 0 <;> simp [hname, hsize]
  · simp [hname]

/-- The documents of a database lie below `documents` in it. -/
theorem Path.pieces_resolve (database relative : String) :
    (resolve database relative).pieces = slashPieces database ++ "documents" :: slashPieces relative := by
  have htext : database ++ "/documents/" ++ relative = database ++ "/" ++ "documents" ++ "/" ++ relative := by
    rw [← String.toList_inj]
    simp
  have hdocuments : slashPieces "documents" = ["documents"] := slashPieces_of_isSegment (by decide)
  rw [resolve, htext, pieces_ofString, slashPieces_append, slashPieces_append, hdocuments, List.append_assoc]
  rfl

theorem DatabaseName.segments_resolve (n : DatabaseName) (relative : String) :
    (Path.resolve n.text relative).segments = n.segments ++ "documents" :: slashPieces relative := by
  have hpieces := Path.pieces_resolve n.text relative
  rw [n.slashPieces_text] at hpieces
  have hne : (Path.resolve n.text relative).pieces ≠ [] := by
    rw [hpieces]
    exact List.cons_ne_nil _ _
  rw [Path.segments_of_ne_nil hne, hpieces]

theorem DatabaseName.resolve_eq_iff (n m : DatabaseName) (relative other : String) :
    Path.resolve n.text relative = Path.resolve m.text other ↔
      n = m ∧ slashPieces relative = slashPieces other := by
  constructor
  · intro h
    have hsegments := congrArg Path.segments h
    rw [segments_resolve, segments_resolve] at hsegments
    obtain ⟨hname, hrest⟩ := List.append_inj hsegments rfl
    exact ⟨ext_segments hname, List.tail_eq_of_cons_eq hrest⟩
  · rintro ⟨rfl, hpieces⟩
    refine Path.ext ?_
    rw [Path.pieces_resolve, Path.pieces_resolve, hpieces]

/-- Listen settings are without complaint exactly if requests have a buffer and the database is a name. Below
a name a text is the path of the name's segments, `documents` and the non-empty pieces of the text, so that a
path tells the database and the pieces. -/
theorem names_resolve_faithfully :
    (∀ s : ListenSettings, s.complaint? = none ↔
        s.requestBufferSize ≠ 0 ∧ ∃ n : DatabaseName, n.text = s.database) ∧
      (∀ (n : DatabaseName) (relative : String),
        (Path.resolve n.text relative).segments = n.segments ++ "documents" :: slashPieces relative) ∧
      ∀ (n m : DatabaseName) (relative other : String),
        Path.resolve n.text relative = Path.resolve m.text other ↔
          n = m ∧ slashPieces relative = slashPieces other :=
  ⟨ListenSettings.complaint?_eq_none_iff, DatabaseName.segments_resolve, DatabaseName.resolve_eq_iff⟩

example : (Path.resolve "projects/p/databases/(default)" "/rooms//r1/").segments =
    ["projects", "p", "databases", "(default)", "documents", "rooms", "r1"] := by
  decide +kernel

end LiveQuery
