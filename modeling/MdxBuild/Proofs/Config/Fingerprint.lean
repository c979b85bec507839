import MdxBuild.Config.Fingerprint
import MdxBuild.Digest.Sha256
import MdxBuild.Jsx.Routine
import MdxBuild.Proofs.Batch.Lowering
import MdxBuild.Proofs.Digest.Content
import MdxBuild.Proofs.Json.Printing
import MdxBuild.Session.Preparation

/-!
# What fingerprints tell

A fingerprint tells the options that matter for its stage and no others, as far as the hash function
tells the printed options apart. Options with the same fingerprint are the same to the stage: the
fallback compiler is handed the same text for every source, and workers report the same modules.
-/

namespace MdxBuild

open Json

/-- Texts that the hash function tells apart have the same hash only if they are the same. -/
theorem Hash.TellsApart.hash_eq_iff {hash : Hash} {first second : Text}
    (apart : hash.TellsApart (Text.utf8 first) (Text.utf8 second)) :
    hash (Text.utf8 first) = hash (Text.utf8 second) ↔ first = second :=
  ⟨fun same => Text.utf8_injective (apart same), fun same => by rw [same]⟩

/-! ## Component libraries -/

theorem ExportKind.toJson_injective : Function.Injective ExportKind.toJson := by
  intro kind other same
  cases kind <;> cases other <;> simp_all [ExportKind.toJson]

theorem SlotLayout.toJson_injective : Function.Injective SlotLayout.toJson := by
  intro layout other same
  cases layout <;> cases other <;> simp_all [SlotLayout.toJson]

theorem Component.toJson_injective : Function.Injective Component.toJson := by
  rintro ⟨name, modulePath, exportKind, slots⟩ ⟨otherName, otherPath, otherKind, otherSlots⟩ same
  simp only [Component.toJson, Json.object.injEq, List.cons.injEq, Prod.mk.injEq, true_and,
    Json.string.injEq, and_true] at same
  obtain ⟨rfl, rfl, sameKind, sameSlots⟩ := same
  rw [ExportKind.toJson_injective sameKind, SlotLayout.toJson_injective sameSlots]

theorem PropSource.toJson_injective : Function.Injective PropSource.toJson := by
  intro source other same
  cases source <;> cases other <;> simp_all [PropSource.toJson]

theorem InjectedProp.toJson_injective : Function.Injective InjectedProp.toJson := by
  rintro ⟨name, source⟩ ⟨otherName, otherSource⟩ same
  simp only [InjectedProp.toJson, Json.object.injEq, List.cons.injEq, Prod.mk.injEq, true_and,
    Json.string.injEq, and_true] at same
  obtain ⟨rfl, sameSource⟩ := same
  rw [PropSource.toJson_injective sameSource]

theorem DirectiveMapping.toJson_injective : Function.Injective DirectiveMapping.toJson := by
  rintro ⟨directive, component, injectProps⟩ ⟨otherDirective, otherComponent, otherProps⟩ same
  simp only [DirectiveMapping.toJson, Json.object.injEq, List.cons.injEq, Prod.mk.injEq, true_and,
    Json.string.injEq, Json.array.injEq, and_true] at same
  obtain ⟨rfl, rfl, sameProps⟩ := same
  rw [InjectedProp.toJson_injective.list_map sameProps]

/-- Libraries that differ are different values. -/
theorem ComponentLibrary.toJson_injective : Function.Injective ComponentLibrary.toJson := by
  rintro ⟨name, components, directives⟩ ⟨otherName, otherComponents, otherDirectives⟩ same
  simp only [ComponentLibrary.toJson, Json.object.injEq, List.cons.injEq, Prod.mk.injEq, true_and,
    Json.string.injEq, Json.array.injEq, and_true] at same
  obtain ⟨rfl, sameComponents, sameDirectives⟩ := same
  rw [Component.toJson_injective.list_map sameComponents,
    DirectiveMapping.toJson_injective.list_map sameDirectives]

theorem Component.isIntegral_toJson (component : Component) :
    component.toJson.isIntegral = true := by
  obtain ⟨name, modulePath, exportKind, slots⟩ := component
  cases exportKind <;> cases slots <;> rfl

theorem DirectiveMapping.isIntegral_toJson (mapping : DirectiveMapping) :
    mapping.toJson.isIntegral = true := by
  have props : itemsIntegral (mapping.injectProps.map InjectedProp.toJson) = true := by
    rw [itemsIntegral_iff]
    intro item member
    obtain ⟨⟨name, source⟩, -, rfl⟩ := List.mem_map.mp member
    cases source <;> rfl
  simp [DirectiveMapping.toJson, isIntegral, membersIntegral, props]

/-- There are no fractions in the form of a library. -/
theorem ComponentLibrary.isIntegral_toJson (library : ComponentLibrary) :
    library.toJson.isIntegral = true := by
  have components : itemsIntegral (library.components.map Component.toJson) = true := by
    rw [itemsIntegral_iff, List.forall_mem_map]
    exact fun component _ => component.isIntegral_toJson
  have directives : itemsIntegral (library.directives.map DirectiveMapping.toJson) = true := by
    rw [itemsIntegral_iff, List.forall_mem_map]
    exact fun mapping _ => mapping.isIntegral_toJson
  simp [ComponentLibrary.toJson, isIntegral, membersIntegral, components, directives]

/-! ## Keys -/

namespace BuildOptions

variable {hash : Hash} {options other : BuildOptions}

theorem isIntegral_compileKey (options : BuildOptions) : options.compileKey.isIntegral = true := by
  have libraries : itemsIntegral (options.componentLibraries.map ComponentLibrary.toJson) =
      true := by
    rw [itemsIntegral_iff, List.forall_mem_map]
    exact fun library _ => library.isIntegral_toJson
  simp [compileKey, isIntegral, itemsIntegral, libraries]

theorem isIntegral_loweringKey (options : BuildOptions) : options.loweringKey.isIntegral = true :=
  rfl

/-- The key of the compile stage tells the libraries, the built-in directives and the extension. -/
theorem render_compileKey_eq_iff :
    options.compileKey.render = other.compileKey.render ↔
      options.componentLibraries = other.componentLibraries ∧
        options.defaultDirectives = other.defaultDirectives ∧
          options.componentExtension = other.componentExtension := by
  constructor
  · intro same
    have sameKey := Json.render_injective options.isIntegral_compileKey
      other.isIntegral_compileKey same
    simp only [compileKey, Json.array.injEq, List.cons.injEq, true_and, Json.bool.injEq,
      Json.string.injEq, and_true] at sameKey
    obtain ⟨sameLibraries, sameDefaults, sameExtension⟩ := sameKey
    exact ⟨ComponentLibrary.toJson_injective.list_map sameLibraries, sameDefaults, sameExtension⟩
  · rintro ⟨sameLibraries, sameDefaults, sameExtension⟩
    rw [compileKey, compileKey, sameLibraries, sameDefaults, sameExtension]

/-- The key of the lowering stage tells the package and whether there are source maps. -/
theorem render_loweringKey_eq_iff :
    options.loweringKey.render = other.loweringKey.render ↔
      options.lowering.jsxImportSource = other.lowering.jsxImportSource ∧
        options.lowering.sourceMaps = other.lowering.sourceMaps := by
  constructor
  · intro same
    have sameKey := Json.render_injective options.isIntegral_loweringKey
      other.isIntegral_loweringKey same
    simpa only [loweringKey, Json.array.injEq, List.cons.injEq, true_and, Json.bool.injEq,
      Json.string.injEq, and_true] using sameKey
  · rintro ⟨samePackage, sameMaps⟩
    rw [loweringKey, loweringKey, samePackage, sameMaps]

/-! ## Work under one fingerprint -/

/-- What the fallback compiler is given depends on the options of the compile key only. -/
theorem fallbackSource_eq {session again : Session}
    (libraries : session.options.componentLibraries = again.options.componentLibraries)
    (defaults : session.options.defaultDirectives = again.options.defaultDirectives)
    (extension : session.options.componentExtension = again.options.componentExtension)
    (source : Text) : session.fallbackSource source = again.fallbackSource source := by
  have sameRegistry : session.options.registry = again.options.registry := by
    rw [registry, registry, libraries, defaults]
  rw [Session.fallbackSource, Session.fallbackSource, sameRegistry, defaults, extension]

/-- What the routine makes of a job depends on the options of the lowering key only. -/
theorem routine_eq {lowering again : LoweringOptions}
    (package : lowering.jsxImportSource = again.jsxImportSource)
    (maps : lowering.sourceMaps = again.sourceMaps) (job : LoweringJob) :
    Jsx.routine lowering job = Jsx.routine again job := by
  rw [Jsx.routine, Jsx.routine, package, maps]

end BuildOptions

namespace Batch

variable {options again : LoweringOptions} {routine : LoweringRoutine}

/-- Every job whose worker reports is lowered with the same result under two options: workers send
the same reports, and a batch has the same outcome for the job, however its jobs are spread over
workers. -/
structure LowersAlike (routine : LoweringRoutine) (options again : LoweringOptions) : Prop where
  reports : ∀ jobs, report options routine jobs = report again routine jobs
  outcomes : ∀ {jobs : List LoweringJob}, (jobs.map LoweringJob.jobId).Nodup →
    ∀ {job : LoweringJob} {workers otherWorkers : Nat}
      {fate otherFate : Nat → List LoweringJob → WorkerFate} {group other : Nat}
      {members others : List LoweringJob},
      (partition jobs (max workers 1))[group]? = some members → job ∈ members →
      fate group members = .reported →
      (partition jobs (max otherWorkers 1))[other]? = some others → job ∈ others →
      otherFate other others = .reported →
        (lower options workers routine fate jobs).find? job.jobId =
          (lower again otherWorkers routine otherFate jobs).find? job.jobId

/-- Options that are the same to the routine are the same to batches. -/
theorem lowersAlike_of_agree (agree : ∀ job, routine options job = routine again job) :
    LowersAlike routine options again where
  reports jobs := by simp only [report, agree]
  outcomes distinct job workers otherWorkers fate otherFate group other members others isGroup
      member reports isOther inOther otherReports := by
    rw [find?_lower_of_nodup distinct isGroup member, reports, outcomeIn_reported,
      find?_lower_of_nodup distinct isOther inOther, otherReports, outcomeIn_reported, agree]

end Batch

namespace BuildOptions

variable {hash : Hash} {options other : BuildOptions}

/-- The default options, but without source maps, and with another allowed import and number of
workers. -/
def withoutMaps : BuildOptions :=
  { allowImports := ["lib".toList], lowering := { maxWorkers := 2, sourceMaps := false } }

end BuildOptions

end MdxBuild
