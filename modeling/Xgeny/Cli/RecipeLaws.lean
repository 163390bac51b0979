import Xgeny.Cli.Commitment
import Xgeny.Cli.Recipes

set_option autoImplicit false

/-!
# What a recipe reference stands for

Between persisting a record and reconstructing it the rows are whatever anyone made of them. The hash
in the reference decides what can come back.

* `reconstruct_persisted`, `persist_again`: while the row of a record stands;
* `persisted_elsewhere`: whatever the rows are, a reference gives back the text that it was persisted
  for, under its profile and in its run;
* `reconstruct_unique`: it gives back one record;
* **`recipes_round_trip`**: the laws together; `deep_recipe_is_lost`: a record that nests too deep to
  be read is persisted all the same.
-/

namespace Xgeny

/-- The hash tells two texts apart. -/
def CanonicalEncoder.TellsApart (E : CanonicalEncoder) (a b : String) : Prop :=
  E.sha256 a = E.sha256 b → a = b

section

variable {E : CanonicalEncoder} {reader : RecipeReader} {record record' : RecipeRecord}
  {profile profile' : RecipeProfile} {reference : ReconstructableMaterialReference}
  {referenceId revision revision' : String}

theorem RecipeRecord.canonical_arguments {arguments : Json}
    (h : arguments.canonical E = record.arguments.canonical E) :
    RecipeRecord.canonical { record with arguments := arguments } E = record.canonical E := by
  rw [Json.canonical, Json.canonical] at h
  rw [RecipeRecord.canonical, RecipeRecord.canonical, Json.canonical, Json.canonical, Json.write,
    Json.write, Json.writeMembers, Json.writeMembers, h]
  rfl

theorem recipeRow_of_text (h : record.canonical E = record'.canonical E) :
    recipeRow E record = recipeRow E record' := by
  rw [recipeRow, recipeRow, h]

theorem recipeId_of_text (h : record.canonical E = record'.canonical E) :
    recipeId E record = recipeId E record' := by
  rw [recipeId, recipeId, h]

theorem canonical_of_recipeId (hE : E.TellsApart (record.canonical E) (record'.canonical E))
    (h : recipeId E record = recipeId E record') : record.canonical E = record'.canonical E :=
  hE (Subtype.ext ((String.append_right_inj _).mp h))

theorem canonical_of_row (h : recipeRow E record = recipeRow E record') :
    record.canonical E = record'.canonical E :=
  bytes_injective (congrArg RecipeRow.record h)

namespace RunMaterialCatalog

variable {self next later later' : RunMaterialCatalog}

theorem row_of_persist (hprofile : IsRecipeProfile profile)
    (h : self.persistRecordWithProfile E record profile = .ok (reference, next)) :
    next.rows[recipeId E record]? = some (recipeRow E record) := by
  obtain ⟨⟨-, -, -, hrow⟩, -, rfl⟩ := (persist_eq_ok hprofile).mp h
  exact insertOrIgnore_get.mpr (hrow.imp_right fun hnone => ⟨hnone, rfl⟩)

/-- **A record whose row stands is given back**, where it can be read. -/
theorem reconstruct_persisted (hprofile : IsRecipeProfile profile)
    (h : self.persistRecordWithProfile E record profile = .ok (reference, next))
    (hrun : later.runId = self.runId)
    (hrow : later.rows[reference.referenceId]? = next.rows[reference.referenceId]?)
    (hreader : reader.Follows E record) (hreadable : record.Readable reader) :
    ∃ record', later.reconstructRecordWithProfile E reader reference.referenceId
        reference.revision profile = .ok record' ∧ record'.canonical E = record.canonical E := by
  obtain ⟨arguments, hread, hsame⟩ := hreader.reads hreadable
  have htext := RecipeRecord.canonical_arguments hsame
  have hstored := row_of_persist hprofile h
  obtain ⟨⟨hself, hshape, hsize, -⟩, rfl, -⟩ := (persist_eq_ok hprofile).mp h
  rw [hstored] at hrow
  refine ⟨{ record with arguments := arguments }, reconstruct_eq_ok.mpr ?_, htext⟩
  rw [recipeRow_of_text htext, recipeId_of_text htext, htext]
  exact ⟨hrow, rfl, rfl, hsize, hread, hself.trans hrun.symm, hshape⟩

/-- **Persisting again changes nothing.** -/
theorem persist_again (hprofile : IsRecipeProfile profile)
    (h : self.persistRecordWithProfile E record profile = .ok (reference, next))
    (hrun : later.runId = self.runId)
    (hrow : later.rows[reference.referenceId]? = next.rows[reference.referenceId]?) :
    later.persistRecordWithProfile E record profile = .ok (reference, later) := by
  have hstored := row_of_persist hprofile h
  obtain ⟨⟨hself, hshape, hsize, -⟩, rfl, -⟩ := (persist_eq_ok hprofile).mp h
  rw [hstored] at hrow
  refine (persist_eq_ok hprofile).mpr
    ⟨⟨hself.trans hrun.symm, hshape, hsize, Or.inl hrow⟩, rfl, ?_⟩
  rw [insertOrIgnore_of_mem hrow]

/-- **Whatever the rows are**, a reference gives back the text that it was persisted for, under its
profile and in its run. While its row stands, the hash has to tell nothing apart. -/
theorem persisted_elsewhere (hprofile : IsRecipeProfile profile)
    (hprofile' : IsRecipeProfile profile')
    (h : self.persistRecordWithProfile E record profile = .ok (reference, next))
    (h' : later.reconstructRecordWithProfile E reader reference.referenceId revision profile' =
      .ok record') (hE : later.rows[reference.referenceId]? = next.rows[reference.referenceId]? ∨
        E.TellsApart (record.canonical E) (record'.canonical E)) :
    profile' = profile ∧ later.runId = self.runId ∧ record'.canonical E = record.canonical E ∧
      record'.arguments.canonical E = record.arguments.canonical E := by
  have hstored := row_of_persist hprofile h
  obtain ⟨⟨hrun, hshape, -, -⟩, rfl, -⟩ := (persist_eq_ok hprofile).mp h
  obtain ⟨hrow, hid, -, -, -, hrun', hshape'⟩ := reconstruct_eq_ok.mp h'
  have htext : record.canonical E = record'.canonical E := by
    rcases hE with hstands | hE
    · rw [hstored, hrow] at hstands
      exact (canonical_of_row (Option.some.inj hstands)).symm
    · exact canonical_of_recipeId hE hid
  have hversion : profile.formatVersion = profile'.formatVersion := by
    rw [hprofile.version, hprofile'.version]
  obtain ⟨hdomain, hruns, harguments⟩ := metadata_of_canonical (shaped hshape) (shaped hshape')
    hversion hprofile.plain hprofile'.plain htext
  refine ⟨hprofile'.domain_inj hprofile ?_, ?_, htext.symm, harguments.symm⟩
  · rw [← (shaped hshape).domain, ← (shaped hshape').domain, hdomain]
  · rw [← hrun, ← hrun', hruns]

/-- **A reference stands for one record**, whatever the rows are. -/
theorem reconstruct_unique
    (h : later.reconstructRecordWithProfile E reader referenceId revision profile = .ok record)
    (h' : later'.reconstructRecordWithProfile E reader referenceId revision' profile' =
      .ok record') (hE : E.TellsApart (record.canonical E) (record'.canonical E)) :
    record = record' := by
  obtain ⟨-, hid, -, -, hread, -⟩ := reconstruct_eq_ok.mp h
  obtain ⟨-, hid', -, -, hread', -⟩ := reconstruct_eq_ok.mp h'
  rw [canonical_of_recipeId hE (hid.symm.trans hid')] at hread
  exact Option.some.inj (hread.symm.trans hread')

end RunMaterialCatalog

theorem RecipeMaterials.reconstruct_eq_ok {self : RecipeMaterials} {arguments : Json} :
    self.reconstruct E reader referenceId revision = .ok arguments ↔
      ∃ record, self.catalog.reconstructRecordWithProfile E reader referenceId revision
          self.profile = .ok record ∧
        self.accepts record.capability record.arguments = true ∧ record.arguments = arguments := by
  simp only [reconstruct, Outcome.bind_eq_ok, Outcome.exists_unit, Outcome.failIf_eq_ok,
    Outcome.pure_eq_ok, not_not]

theorem RecipeMaterials.materialize_eq_ok {self : RecipeMaterials} {next : RunMaterialCatalog}
    {request : PlanMaterializationRequest}
    (h : self.materialize E request = .ok (reference, next)) :
    ∃ record, record.arguments = request.normalizedArguments ∧
      self.catalog.persistRecordWithProfile E record self.profile = .ok (reference, next) := by
  simp only [materialize, RunMaterialCatalog.persistRequestWithProfile, Outcome.bind_eq_ok,
    Outcome.exists_unit, Outcome.failIf_eq_ok] at h
  obtain ⟨-, -, hpersist⟩ := h
  exact ⟨_, rfl, hpersist⟩

end

/-- **Recipes round trip.** While the row of a persisted record stands, a record that the reader can
read is given back with its text, persisting it again changes nothing, and its reference gives back
nothing under the other profile or in another run. The last holds whatever the rows are, where the hash
tells the texts apart, and what is given back is then the text that was persisted; it has the hash of
the reference, and is one record; and the arguments that a provider gives back are those of the
record. -/
theorem recipes_round_trip (E : CanonicalEncoder) (reader : RecipeReader) :
    (∀ (self next : RunMaterialCatalog) record profile reference, IsRecipeProfile profile →
      self.persistRecordWithProfile E record profile = .ok (reference, next) →
        (∀ later : RunMaterialCatalog, later.runId = self.runId →
          later.rows[reference.referenceId]? = next.rows[reference.referenceId]? →
            (reader.Follows E record → record.Readable reader →
              ∃ record', later.reconstructRecordWithProfile E reader reference.referenceId
                  reference.revision profile = .ok record' ∧
                record'.canonical E = record.canonical E) ∧
            later.persistRecordWithProfile E record profile = .ok (reference, later)) ∧
        ∀ (later : RunMaterialCatalog) revision profile' record', IsRecipeProfile profile' →
          later.reconstructRecordWithProfile E reader reference.referenceId revision profile' =
            .ok record' →
          later.rows[reference.referenceId]? = next.rows[reference.referenceId]? ∨
            E.TellsApart (record.canonical E) (record'.canonical E) →
            profile' = profile ∧ later.runId = self.runId ∧
              record'.canonical E = record.canonical E ∧
              record'.arguments.canonical E = record.arguments.canonical E) ∧
    (∀ (later : RunMaterialCatalog) referenceId revision profile record,
      later.reconstructRecordWithProfile E reader referenceId revision profile = .ok record →
        referenceId = "recipe-" ++ (E.sha256 (record.canonical E)).val ∧
          revision = "sha256-" ++ (E.sha256 (record.canonical E)).val) ∧
    (∀ (later later' : RunMaterialCatalog) referenceId revision revision' profile profile' record
        record',
      later.reconstructRecordWithProfile E reader referenceId revision profile = .ok record →
      later'.reconstructRecordWithProfile E reader referenceId revision' profile' = .ok record' →
      E.TellsApart (record.canonical E) (record'.canonical E) → record = record') ∧
    (∀ (materials : RecipeMaterials) request reference next,
      materials.materialize E request = .ok (reference, next) →
        ∃ record, record.arguments = request.normalizedArguments ∧
          materials.catalog.persistRecordWithProfile E record materials.profile =
            .ok (reference, next)) ∧
    ∀ (materials : RecipeMaterials) referenceId revision arguments,
      materials.reconstruct E reader referenceId revision = .ok arguments ↔
        ∃ record, materials.catalog.reconstructRecordWithProfile E reader referenceId revision
            materials.profile = .ok record ∧
          materials.accepts record.capability record.arguments = true ∧
          record.arguments = arguments := by
  refine ⟨?_, ?_, ?_, ?_, ?_⟩
  · intro self next record profile reference hprofile h
    refine ⟨fun later hrun hrow => ⟨fun hreader hreadable => ?_, ?_⟩, ?_⟩
    · exact RunMaterialCatalog.reconstruct_persisted hprofile h hrun hrow hreader hreadable
    · exact RunMaterialCatalog.persist_again hprofile h hrun hrow
    · intro later revision profile' record' hprofile' h' hE
      exact RunMaterialCatalog.persisted_elsewhere hprofile hprofile' h h' hE
  · intro later referenceId revision profile record h
    obtain ⟨-, hid, hrevision, -⟩ := RunMaterialCatalog.reconstruct_eq_ok.mp h
    exact ⟨hid, hrevision⟩
  · intro later later' referenceId revision revision' profile profile' record record' h h' hE
    exact RunMaterialCatalog.reconstruct_unique h h' hE
  · intro materials request reference next h
    exact RecipeMaterials.materialize_eq_ok h
  · intro materials referenceId revision arguments
    exact RecipeMaterials.reconstruct_eq_ok

/-! ## Records that are persisted -/

/-- A catalog without rows. -/
def emptyCatalog : RunMaterialCatalog := ⟨∅, "run-00000000000000000000000000000000"⟩

/-- A recipe of the process profile with some arguments. -/
def sampleRecord (arguments : Json) : RecipeRecord where
  domain := processRecipeProfile.domain
  formatVersion := 1
  runId := emptyCatalog.runId
  stepId := "s"
  proposalDigest := sha256Digest zeroHash
  capability := processExecuteCapability
  materialDigest := sha256Digest zeroHash
  arguments := arguments

/-- Arrays in arrays. -/
def deepArguments : ℕ → Json
  | 0 => .array []
  | n + 1 => .array [deepArguments n]

/-- A reader of one text. -/
def readerOf (record : RecipeRecord) : RecipeReader where
  fromSlice text :=
    if text = bytes (record.canonical sampleEncoder) then
      if record.arguments.nesting ≤ maxReadableNesting then some record else none
    else none
  readsBack _ := true

theorem readerOf_follows (record : RecipeRecord) :
    (readerOf record).Follows sampleEncoder record where
  reads h := ⟨record.arguments, (if_pos rfl).trans (if_pos h.nesting), rfl⟩
  limited h := (if_pos rfl).trans (if_neg (not_le.mpr h))

theorem sample_persisted (arguments : Json)
    (h : byteLen ((sampleRecord arguments).canonical sampleEncoder) ≤ maxRecipeBytes) :
    ∃ reference next, emptyCatalog.persistRecordWithProfile sampleEncoder (sampleRecord arguments)
      processRecipeProfile = .ok (reference, next) := by
  have hshape : recordShapeValid (sampleRecord .null) processRecipeProfile = true := by
    decide
  exact ⟨_, _, (RunMaterialCatalog.persist_eq_ok (Or.inr rfl)).mpr
    ⟨⟨rfl, hshape, h, Or.inr Std.ExtTreeMap.getElem?_empty⟩, rfl, rfl⟩⟩

/-- A record comes back under its profile, and not under the other one. -/
theorem recipes_round_trip_sample : ∃ reference next record',
    emptyCatalog.persistRecordWithProfile sampleEncoder (sampleRecord (deepArguments 3))
      processRecipeProfile = .ok (reference, next) ∧
    next.reconstructRecordWithProfile sampleEncoder (readerOf (sampleRecord (deepArguments 3)))
      reference.referenceId reference.revision processRecipeProfile = .ok record' ∧
    record'.canonical sampleEncoder = (sampleRecord (deepArguments 3)).canonical sampleEncoder ∧
    ∀ other, next.reconstructRecordWithProfile sampleEncoder
      (readerOf (sampleRecord (deepArguments 3))) reference.referenceId reference.revision
        workspaceRecipeProfile ≠ .ok other := by
  obtain ⟨reference, next, h⟩ := sample_persisted (deepArguments 3) (by decide +kernel)
  obtain ⟨hround, -⟩ := recipes_round_trip sampleEncoder (readerOf (sampleRecord (deepArguments 3)))
  obtain ⟨hkept, helsewhere⟩ := hround _ _ _ _ _ (Or.inr rfl) h
  have hrun : next.runId = emptyCatalog.runId := by
    obtain ⟨-, -, rfl⟩ := (RunMaterialCatalog.persist_eq_ok (Or.inr rfl)).mp h
    rfl
  obtain ⟨record', hok, htext⟩ := (hkept next hrun rfl).1 (readerOf_follows _)
    ⟨by decide, by decide, by decide⟩
  refine ⟨reference, next, record', h, hok, htext, fun other hother => ?_⟩
  obtain ⟨hprofile, -⟩ := helsewhere next _ _ other (Or.inl rfl) hother (Or.inl rfl)
  exact absurd (congrArg RecipeProfile.domain hprofile) (by decide)

/-- **A record that nests too deep is persisted and cannot be read.** -/
theorem deep_recipe_is_lost : ¬ ∀ (E : CanonicalEncoder) (reader : RecipeReader)
    (self next : RunMaterialCatalog) record profile reference, IsRecipeProfile profile →
      reader.Follows E record → record.arguments.inKeyOrder = true →
      self.persistRecordWithProfile E record profile = .ok (reference, next) →
        ∃ record', next.reconstructRecordWithProfile E reader reference.referenceId
            reference.revision profile = .ok record' ∧
          record'.canonical E = record.canonical E := by
  intro hall
  obtain ⟨reference, next, h⟩ := sample_persisted (deepArguments 126) (by decide +kernel)
  obtain ⟨record', hok, htext⟩ := hall _ (readerOf (sampleRecord (deepArguments 126))) _ _ _ _ _
    (Or.inr rfl) (readerOf_follows _) (by decide +kernel) h
  obtain ⟨-, -, -, -, hread, -⟩ := RunMaterialCatalog.reconstruct_eq_ok.mp hok
  rw [htext, (readerOf_follows _).limited (by decide +kernel)] at hread
  exact absurd hread (by simp)

end Xgeny
