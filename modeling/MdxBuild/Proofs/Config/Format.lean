import MdxBuild.Config.Format
import MdxBuild.Proofs.Json.Record
import MdxBuild.Proofs.Json.Yield

/-!
# Printed build options

Build options are read back from their printed form as they were, as long as their numbers fit the
64 bits that the reader allows; the numbers of options that were read do. The component libraries
among them have no numbers, and every part of them is read back.
-/

namespace MdxBuild

open Json

/-! ## Component libraries -/

theorem ExportKind.readsUnless_toJson (kind : ExportKind) :
    ReadsUnless (.ok ()) (readVariant ExportKind.names) kind.toJson.render kind := by
  cases kind <;> exact readsUnless_variant rfl

theorem SlotLayout.readsUnless_toJson (layout : SlotLayout) :
    ReadsUnless (.ok ()) (readVariant SlotLayout.names) layout.toJson.render layout := by
  cases layout <;> exact readsUnless_variant rfl

theorem Component.readsUnless_toJson (component : Component) :
    ReadsUnless (.ok ()) Component.record.read component.toJson.render component :=
  Record.readsUnless_object
    (.next (Record.readsUnless_member rfl rfl (readsUnless_text _ component.name))
      (.next (Record.readsUnless_member rfl rfl (readsUnless_text _ component.modulePath))
        (.next (Record.readsUnless_member rfl rfl component.exportKind.readsUnless_toJson)
          (.next (Record.readsUnless_member rfl rfl component.slots.readsUnless_toJson)
            (.done _))))) rfl

namespace PropSource

/-- The member that names the kind of a prop source decides its kind. -/
theorem readsUnless_kind {draft : Draft} {name : Text} {kind : Kind}
    (known : (Kind.names.find? fun variant => variant.1 == name) = some (name, kind))
    (undecided : draft.kind = none) :
    ReadsUnless (.ok ()) (fun text => member draft "from".toList (':' :: text))
      (string name).render { draft with kind := some kind } := by
  intro rest ended
  have readsName := readsUnless_variantName known rest ended
  simp only [member, if_true, undecided, Option.isSome_none, Bool.false_eq_true, if_false,
    afterColon_cons]
  change (readVariantName Kind.names ((string name).render ++ rest)).bind
    (fun result => .ok ({ draft with kind := some result.1 }, result.2)) = _
  rw [readsName]
  rfl

/-- A member beside the kind is kept as a value. -/
theorem readsUnless_beside {draft : Draft} {key value : Text} (beside : key ≠ "from".toList) :
    ReadsUnless (.ok ()) (fun text => member draft key (':' :: text)) (string value).render
      { draft with others := draft.others ++ [(key, .string value)] } := by
  intro rest ended
  have whole : (Json.string value).isWhole = true := rfl
  have readsText := readsUnless_value whole valueDepth rest ended
  simp only [member, if_neg beside, afterColon_cons]
  change (readValue valueDepth ((string value).render ++ rest)).bind
    (fun result =>
      .ok ({ draft with others := draft.others ++ [(key, result.1)] }, result.2)) = _
  rw [readsText]
  rfl

/-- A prop source is read back from an object whose members decide on it. -/
theorem readsUnless_object {members : List (Text × Json)} {draft : Draft} {kind : Kind}
    {source : PropSource} (takes : Takes member {} members (.ok ()) draft)
    (decided : draft.kind = some kind) (ofOthers : ofMembers draft.others kind = .ok source) :
    ReadsUnless (.ok ()) read (object members).render source := by
  intro rest ended
  rw [object_append, read, skipBlanks_cons rfl]
  change ((readMembers member _ true {} (renderMembers members ++ '\x7d' :: rest)).bind
    fun result => (require "from".toList result.1.kind).bind fun kind =>
      (ofMembers result.1.others kind).bind fun source => .ok (source, result.2)) = _
  rw [takes.readMembers_object (Takes.length_lt_renderMembers members rest)]
  simp only [Except.map, Except.bind, decided, require, ofOthers]

theorem readsUnless_toJson (source : PropSource) :
    ReadsUnless (.ok ()) PropSource.read source.toJson.render source := by
  cases source with
  | directiveName => exact readsUnless_object (.next (readsUnless_kind rfl rfl) (.done _)) rfl rfl
  | bracketTitle => exact readsUnless_object (.next (readsUnless_kind rfl rfl) (.done _)) rfl rfl
  | literal value =>
    exact readsUnless_object
      (.next (readsUnless_kind rfl rfl) (.next (readsUnless_beside (by decide)) (.done _))) rfl rfl

end PropSource

theorem InjectedProp.readsUnless_toJson (prop : InjectedProp) :
    ReadsUnless (.ok ()) InjectedProp.record.read prop.toJson.render prop :=
  Record.readsUnless_object
    (.next (Record.readsUnless_member rfl rfl (readsUnless_text _ prop.name))
      (.next (Record.readsUnless_member rfl rfl prop.source.readsUnless_toJson) (.done _))) rfl

theorem DirectiveMapping.readsUnless_toJson (mapping : DirectiveMapping) :
    ReadsUnless (.ok ()) DirectiveMapping.record.read mapping.toJson.render mapping := by
  have readsProps := readsUnless_list
    (fun prop (_ : prop ∈ mapping.injectProps) => startsItem_object _)
    fun prop _ => prop.readsUnless_toJson
  exact Record.readsUnless_object
    (.next (Record.readsUnless_member rfl rfl (readsUnless_text _ mapping.directive))
      (.next (Record.readsUnless_member rfl rfl (readsUnless_text _ mapping.component))
        (.next (Record.readsUnless_member rfl rfl readsProps) (.done _)))) rfl

theorem ComponentLibrary.readsUnless_toJson (library : ComponentLibrary) :
    ReadsUnless (.ok ()) ComponentLibrary.record.read library.toJson.render library := by
  have readsComponents := readsUnless_list
    (fun component (_ : component ∈ library.components) => startsItem_object _)
    fun component _ => component.readsUnless_toJson
  have readsDirectives := readsUnless_list
    (fun mapping (_ : mapping ∈ library.directives) => startsItem_object _)
    fun mapping _ => mapping.readsUnless_toJson
  exact Record.readsUnless_object
    (.next (Record.readsUnless_member rfl rfl (readsUnless_text _ library.name))
      (.next (Record.readsUnless_member rfl rfl readsComponents)
        (.next (Record.readsUnless_member rfl rfl readsDirectives) (.done _)))) rfl

/-! ## Options -/

namespace LoweringOptions

/-- The numbers of the options fit 64 bits. -/
structure IsBounded (options : LoweringOptions) : Prop where
  maxWorkers : options.maxWorkers ≤ greatestUnsigned
  timeoutMs : options.timeoutMs ≤ greatestUnsigned

theorem readsUnless_toJson {options : LoweringOptions} (bounded : options.IsBounded) :
    ReadsUnless (.ok ()) LoweringOptions.record.read options.toJson.render options := by
  have readsWorkers : ReadsUnless (.ok ()) (readUnsigned "usize".toList)
      (Json.ofNat options.maxWorkers).render options.maxWorkers :=
    render_ofNat options.maxWorkers ▸ readsUnless_unsigned bounded.maxWorkers
  have readsTimeout : ReadsUnless (.ok ()) (readUnsigned "u64".toList)
      (Json.ofNat options.timeoutMs).render options.timeoutMs :=
    render_ofNat options.timeoutMs ▸ readsUnless_unsigned bounded.timeoutMs
  exact Record.readsUnless_object
    (.next (Record.readsUnless_member rfl rfl readsWorkers)
      (.next (Record.readsUnless_member rfl rfl readsTimeout)
        (.next (Record.readsUnless_member rfl rfl (readsUnless_text _ options.jsxImportSource))
          (.next (Record.readsUnless_member rfl rfl (readsUnless_bool options.sourceMaps))
            (.done _))))) rfl

/-- The numbers that have been read fit 64 bits. -/
structure Draft.IsBounded (draft : Draft) : Prop where
  maxWorkers : ∀ count ∈ draft.maxWorkers, count ≤ greatestUnsigned
  timeoutMs : ∀ time ∈ draft.timeoutMs, time ≤ greatestUnsigned

theorem keeps_isBounded : LoweringOptions.record.Keeps Draft.IsBounded := by
  have setsWorkers {draft : Draft} (bounded : draft.IsBounded) (count : Nat)
      (fits : count ≤ greatestUnsigned) :
      Draft.IsBounded { draft with maxWorkers := some count } :=
    ⟨by rintro _ ⟨⟩; exact fits, bounded.timeoutMs⟩
  have setsTimeout {draft : Draft} (bounded : draft.IsBounded) (time : Nat)
      (fits : time ≤ greatestUnsigned) :
      Draft.IsBounded { draft with timeoutMs := some time } :=
    ⟨bounded.maxWorkers, by rintro _ ⟨⟩; exact fits⟩
  refine List.forall_mem_cons.mpr ⟨?workers, List.forall_mem_cons.mpr ⟨?timeout,
    List.forall_mem_cons.mpr ⟨?source, List.forall_mem_cons.mpr ⟨?maps, nofun⟩⟩⟩⟩
  case workers =>
    intro draft text bounded
    exact yields_fill (yields_unsigned _) (setsWorkers bounded) text
  case timeout =>
    intro draft text bounded
    exact yields_fill (yields_unsigned _) (setsTimeout bounded) text
  case source =>
    intro draft text bounded
    exact yields_fill_of_forall (fun _ => ⟨bounded.maxWorkers, bounded.timeoutMs⟩) text
  case maps =>
    intro draft text bounded
    exact yields_fill_of_forall (fun _ => ⟨bounded.maxWorkers, bounded.timeoutMs⟩) text

theorem isBounded_ofDraft {draft : Draft} (bounded : draft.IsBounded) :
    (ofDraft draft).IsBounded where
  maxWorkers := by
    cases given : draft.maxWorkers with
    | none => simp [ofDraft, given, greatestUnsigned]
    | some count => simpa [ofDraft, given] using bounded.maxWorkers count given
  timeoutMs := by
    cases given : draft.timeoutMs with
    | none => simp [ofDraft, given, greatestUnsigned]
    | some time => simpa [ofDraft, given] using bounded.timeoutMs time given

/-- The numbers of lowering options that were read fit 64 bits. -/
theorem yields_isBounded (text : Text) : Yields (LoweringOptions.record.read text) IsBounded := by
  refine Record.yields keeps_isBounded ⟨fun _ => nofun, fun _ => nofun⟩ ?_ text
  rintro draft _ bounded ⟨⟩
  exact isBounded_ofDraft bounded

end LoweringOptions

namespace BuildOptions

theorem readsUnless_toJson {options : BuildOptions} (bounded : options.lowering.IsBounded) :
    ReadsUnless (.ok ()) BuildOptions.record.read options.toJson.render options := by
  have readsImports := readsUnless_list
    (fun specifier (_ : specifier ∈ options.allowImports) => startsItem_render rfl)
    fun specifier _ => readsUnless_text "a string".toList specifier
  have readsLibraries := readsUnless_list
    (fun library (_ : library ∈ options.componentLibraries) => startsItem_object _)
    fun library _ => library.readsUnless_toJson
  exact Record.readsUnless_object
    (.next (Record.readsUnless_member rfl rfl readsImports)
      (.next (Record.readsUnless_member rfl rfl (readsUnless_bool options.ignoreCodeFences))
        (.next (Record.readsUnless_member rfl rfl (readsUnless_bool options.defaultDirectives))
          (.next (Record.readsUnless_member rfl rfl readsLibraries)
            (.next (Record.readsUnless_member rfl rfl
                (readsUnless_text _ options.componentExtension))
              (.next (Record.readsUnless_member rfl rfl
                  (readsUnless_optional _ options.cacheDir))
                (.next (Record.readsUnless_member rfl rfl
                    (LoweringOptions.readsUnless_toJson bounded))
                  (.done _)))))))) rfl

theorem keeps_isBounded : BuildOptions.record.Keeps
    fun draft => ∀ lowering ∈ draft.lowering, lowering.IsBounded := by
  have setsLowering (lowering : LoweringOptions) (bounded : lowering.IsBounded) :
      ∀ read ∈ some lowering, read.IsBounded := by
    rintro _ ⟨⟩
    exact bounded
  refine List.forall_mem_cons.mpr ⟨?imports, List.forall_mem_cons.mpr ⟨?fences,
    List.forall_mem_cons.mpr ⟨?directives, List.forall_mem_cons.mpr ⟨?libraries,
    List.forall_mem_cons.mpr ⟨?ending, List.forall_mem_cons.mpr ⟨?cache,
    List.forall_mem_cons.mpr ⟨?lowering, nofun⟩⟩⟩⟩⟩⟩⟩
  case lowering =>
    intro draft text _
    exact yields_fill LoweringOptions.yields_isBounded setsLowering text
  all_goals
    intro draft text bounded
    exact yields_fill_of_forall (fun _ => bounded) text

/-- The numbers of build options that were read fit 64 bits. -/
theorem yields_isBounded (text : Text) :
    Yields (BuildOptions.record.read text) fun options => options.lowering.IsBounded := by
  refine Record.yields keeps_isBounded (fun _ => nofun) ?_ text
  rintro draft _ bounded ⟨⟩
  cases given : draft.lowering with
  | none =>
    simp only [ofDraft, given, Option.getD_none]
    exact ⟨by decide, by decide⟩
  | some lowering => simpa [ofDraft, given] using bounded lowering given

theorem isBounded_of_parse {text : Text} {options : BuildOptions}
    (parsed : parse text = .ok options) : options.lowering.IsBounded := by
  cases made : parseAs BuildOptions.record.read text with
  | error fault =>
    rw [parse, made] at parsed
    cases parsed
  | ok value =>
    rw [parse, made] at parsed
    cases parsed
    obtain ⟨rest, found⟩ := exists_of_parseAs made
    exact yields_isBounded text _ rest found

/-- Build options survive being printed and parsed: all options with numbers of 64 bits do, and so
do all options that were parsed from a text. -/
theorem parse_toJson :
    (∀ options : BuildOptions, options.lowering.IsBounded →
      parse options.toJson.render = .ok options) ∧
    (∀ (text : Text) (options : BuildOptions), parse text = .ok options →
      parse options.toJson.render = .ok options) := by
  have survives (options : BuildOptions) (bounded : options.lowering.IsBounded) :
      parse options.toJson.render = .ok options := by
    rw [parse, parseAs_of_readsUnless (readsUnless_toJson bounded)]
    rfl
  constructor
  · exact survives
  · intro text options parsed
    exact survives options (isBounded_of_parse parsed)

/-- Options as a host may write them: one is unknown, and most are left to their defaults. -/
def sampled : Text :=
  "\x7b\"mode\":1,\"lowering\":\x7b\"timeoutMs\":7\x7d\x7d".toList

/-- The options that the text stands for. -/
def ofSampled : BuildOptions :=
  { lowering := { timeoutMs := 7 } }

theorem parse_toJson_of_sampled :
    (({} : BuildOptions).lowering.IsBounded ∧
      parse ({} : BuildOptions).toJson.render = .ok {}) ∧
    parse sampled = .ok ofSampled ∧ parse ofSampled.toJson.render = .ok ofSampled := by
  have bounded : ({} : BuildOptions).lowering.IsBounded := ⟨by decide, by decide⟩
  have parsed : parse sampled = .ok ofSampled := by
    have read : (parse sampled).toOption = some ofSampled := by decide +kernel
    cases outcome : parse sampled with
    | error fault => simp [outcome, Except.toOption] at read
    | ok options => simpa [outcome, Except.toOption] using read
  exact ⟨⟨bounded, parse_toJson.1 {} bounded⟩, parsed, parse_toJson.2 sampled ofSampled parsed⟩

end BuildOptions

end MdxBuild
