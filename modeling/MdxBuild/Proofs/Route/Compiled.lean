import MdxBuild.Proofs.Route
import MdxBuild.Proofs.Text.Glob

/-!
# Routing by patterns

An allow list is compiled if and only if the engine takes all of its patterns, and is then the
lenient list as well. It allows the specifiers that one of its globs accepts, so it leads to the
route that the globs lead to. With more patterns a document never has more specifiers that keep it
off the fast path, be the first list empty or some patterns refused.
-/

namespace MdxBuild

open Regular

variable {engine : Engine} {patterns : List Text}

/-! ## Compiling -/

namespace CompiledAllowList

variable {allowed : CompiledAllowList engine} {matchers : List engine.Matcher} {specifier : Text}

/-- The engine takes the pattern. -/
def Takes (engine : Engine) (pattern : Text) : Prop :=
  ∃ matcher, engine.compile (Glob.expression engine pattern) = .ok matcher

theorem takes_of_matchers? (isOk : matchers? engine patterns = .ok matchers) :
    ∀ pattern ∈ patterns, Takes engine pattern := by
  induction patterns generalizing matchers with
  | nil => exact fun _ member => absurd member List.not_mem_nil
  | cons pattern others ih =>
    rw [matchers?] at isOk
    cases compiled : engine.compile (Glob.expression engine pattern) with
    | error reason => rw [compiled] at isOk; cases isOk
    | ok matcher =>
      cases rest : matchers? engine others with
      | error fault => rw [compiled, rest] at isOk; cases isOk
      | ok remaining => exact List.forall_mem_cons.mpr ⟨⟨matcher, compiled⟩, ih rest⟩

/-- Patterns that are all taken have the matchers of the lenient list. -/
theorem matchers?_of_takes (taken : ∀ pattern ∈ patterns, Takes engine pattern) :
    matchers? engine patterns = .ok (lenient engine patterns).matchers := by
  induction patterns with
  | nil => rfl
  | cons pattern others ih =>
    obtain ⟨⟨matcher, compiled⟩, othersTaken⟩ := List.forall_mem_cons.mp taken
    simp only [matchers?, compiled, ih othersTaken, lenient, List.filterMap_cons]
    rfl

/-- A list is compiled exactly if all of its patterns are taken, and is the lenient one then. -/
theorem compile_eq_ok_iff :
    compile engine patterns = .ok allowed ↔
      (∀ pattern ∈ patterns, Takes engine pattern) ∧ allowed = lenient engine patterns := by
  constructor
  · intro isOk
    have taken : ∀ pattern ∈ patterns, Takes engine pattern := by
      cases found : matchers? engine patterns with
      | error fault => rw [compile, found] at isOk; cases isOk
      | ok matchers => exact takes_of_matchers? found
    rw [compile, matchers?_of_takes taken] at isOk
    exact ⟨taken, (Except.ok.inj isOk).symm⟩
  · rintro ⟨taken, rfl⟩
    rw [compile, matchers?_of_takes taken]
    rfl

theorem matchers?_eq_error_iff {fault : PatternFault} :
    matchers? engine patterns = .error fault ↔ ∃ earlier later,
      patterns = earlier ++ fault.pattern :: later ∧
        (∀ pattern ∈ earlier, Takes engine pattern) ∧
        engine.compile (Glob.expression engine fault.pattern) = .error fault.reason := by
  constructor
  · intro isError
    induction patterns with
    | nil => cases isError
    | cons pattern others ih =>
      rw [matchers?] at isError
      cases compiled : engine.compile (Glob.expression engine pattern) with
      | error reason =>
        rw [compiled] at isError
        obtain rfl := Except.error.inj isError
        exact ⟨[], others, rfl, fun _ member => absurd member List.not_mem_nil, compiled⟩
      | ok matcher =>
        cases rest : matchers? engine others with
        | ok remaining => rw [compiled, rest] at isError; cases isError
        | error found =>
          rw [compiled, rest] at isError
          obtain rfl := Except.error.inj isError
          obtain ⟨earlier, later, rfl, taken, refused⟩ := ih rest
          exact ⟨pattern :: earlier, later, rfl,
            List.forall_mem_cons.mpr ⟨⟨matcher, compiled⟩, taken⟩, refused⟩
  · rintro ⟨earlier, later, rfl, taken, refused⟩
    induction earlier with
    | nil => rw [List.nil_append, matchers?, refused]
    | cons pattern others ih =>
      obtain ⟨⟨matcher, compiled⟩, othersTaken⟩ := List.forall_mem_cons.mp taken
      rw [List.cons_append, matchers?, compiled, ih othersTaken]
      rfl

/-- A list that is not compiled names its first pattern that is refused, and the engine's reason. -/
theorem compile_eq_error_iff {fault : PatternFault} :
    compile engine patterns = .error fault ↔ ∃ earlier later,
      patterns = earlier ++ fault.pattern :: later ∧
        (∀ pattern ∈ earlier, Takes engine pattern) ∧
        engine.compile (Glob.expression engine fault.pattern) = .error fault.reason := by
  rw [← matchers?_eq_error_iff, compile]
  cases matchers? engine patterns with
  | error found => simp only [Except.map, Except.error.injEq]
  | ok matchers => simp only [Except.map, reduceCtorEq]

/-- Only a pattern whose expression does not fit is refused by an engine that conforms. -/
theorem not_fits_of_compile_eq_error (conforms : engine.Conforms) {fault : PatternFault}
    (isError : compile engine patterns = .error fault) :
    fault.pattern ∈ patterns ∧ ¬ engine.Fits (Glob.expression engine fault.pattern) := by
  obtain ⟨earlier, later, rfl, -, refused⟩ := compile_eq_error_iff.mp isError
  refine ⟨List.mem_append_right _ List.mem_cons_self, fun fits => ?_⟩
  obtain ⟨matcher, compiled⟩ := conforms.compiles (Glob.read?_expression conforms _) fits
  rw [refused] at compiled
  cases compiled

theorem allows_lenient_iff :
    (lenient engine patterns).allows specifier = true ↔ ∃ pattern ∈ patterns, ∃ matcher,
      engine.compile (Glob.expression engine pattern) = .ok matcher ∧
        engine.occurs matcher specifier = true := by
  rw [allows, List.any_eq_true]
  constructor
  · rintro ⟨matcher, member, occurs⟩
    obtain ⟨pattern, isPattern, compiled⟩ := List.mem_filterMap.mp member
    cases result : engine.compile (Glob.expression engine pattern) with
    | error reason => rw [result] at compiled; cases compiled
    | ok found =>
      rw [result] at compiled
      obtain rfl := Option.some.inj compiled
      exact ⟨pattern, isPattern, found, result, occurs⟩
  · rintro ⟨pattern, isPattern, matcher, compiled, occurs⟩
    exact ⟨matcher, List.mem_filterMap.mpr ⟨pattern, isPattern, by rw [compiled]; rfl⟩, occurs⟩

/-- Without patterns nothing is allowed. -/
theorem allows_lenient_of_unconfigured
    (unconfigured : (lenient engine patterns).isConfigured = false) (specifier : Text) :
    (lenient engine patterns).allows specifier = false := by
  rw [lenient, Bool.not_eq_false', List.isEmpty_iff] at unconfigured
  rw [unconfigured]
  rfl

/-- Where all patterns are taken, the lenient list allows what the globs accept. -/
theorem allows_lenient_eq (conforms : engine.Conforms)
    (taken : ∀ pattern ∈ patterns, Takes engine pattern) (specifier : Text) :
    (lenient engine patterns).allows specifier = AllowList.allows ⟨patterns⟩ specifier := by
  rw [Bool.eq_iff_iff, allows_lenient_iff, AllowList.allows, List.any_eq_true]
  refine exists_congr fun pattern => and_congr_right fun isPattern => ?_
  constructor
  · rintro ⟨matcher, compiled, occurs⟩
    rwa [Glob.occurs_eq_accepts conforms compiled] at occurs
  · intro accepted
    obtain ⟨matcher, compiled⟩ := taken pattern isPattern
    exact ⟨matcher, compiled, by rwa [Glob.occurs_eq_accepts conforms compiled]⟩

end CompiledAllowList

/-! ## Routes -/

namespace Route

/-- The route of a document with the specifiers that are refused. -/
def ofRefused (isConfigured : Bool) : List Text → Route
  | [] => .fast
  | refused => .fallback (if isConfigured then .notAllowed else .noAllowList) refused

/-- The route is at least as free as the other: it lists no specifiers but some of the other's, in
their order, and is fast if the other is. -/
structure Relaxes (route other : Route) : Prop where
  sublist : route.disallowed.Sublist other.disallowed
  isFast (otherFast : other.isFast = true) : route.isFast = true

theorem ofRefused_of_ne_nil {refused : List Text} (someRefused : refused ≠ [])
    (isConfigured : Bool) : ofRefused isConfigured refused =
      .fallback (if isConfigured then .notAllowed else .noAllowList) refused := by
  obtain ⟨first, others, rfl⟩ := List.exists_cons_of_ne_nil someRefused
  rfl

theorem disallowed_ofRefused (isConfigured : Bool) (refused : List Text) :
    (ofRefused isConfigured refused).disallowed = refused := by
  cases refused <;> rfl

theorem isFast_ofRefused (isConfigured : Bool) (refused : List Text) :
    (ofRefused isConfigured refused).isFast = refused.isEmpty := by
  cases refused <;> rfl

/-- A document with fewer specifiers refused has a freer route. -/
theorem relaxes_ofRefused {refused others : List Text} (fewer : refused.Sublist others)
    (isConfigured otherConfigured : Bool) :
    (ofRefused isConfigured refused).Relaxes (ofRefused otherConfigured others) where
  sublist := by
    rw [disallowed_ofRefused, disallowed_ofRefused]
    exact fewer
  isFast otherFast := by
    rw [isFast_ofRefused, List.isEmpty_iff] at otherFast
    rw [otherFast] at fewer
    rw [isFast_ofRefused, List.sublist_nil.mp fewer]
    rfl

/-- The route is told by the specifiers that are refused. -/
theorem classify_eq_ofRefused (allowed : AllowList) (ignoreFences : Bool) (source : Text) :
    classify allowed ignoreFences source = ofRefused allowed.isConfigured
      ((Import.specifiers (scanned ignoreFences source)).filter (!allowed.allows ·)) := by
  rw [classify, ofSpecifiers_eq]
  split
  · next noneRefused =>
    rw [noneRefused]
    rfl
  · next someRefused => exact (ofRefused_of_ne_nil someRefused allowed.isConfigured).symm

theorem specifiers_scanned_nil (ignoreFences : Bool) :
    Import.specifiers (scanned ignoreFences []) = [] := by
  cases ignoreFences <;> rfl

/-- The route is told by the specifiers that are refused, if a list that is not configured refuses
all of them. -/
theorem classifyWith_eq_ofRefused {allowed : CompiledAllowList engine}
    (unconfigured : allowed.isConfigured = false → ∀ specifier, allowed.allows specifier = false)
    (ignoreFences : Bool) (source : Text) :
    classifyWith allowed ignoreFences source = ofRefused allowed.isConfigured
      ((Import.specifiers (scanned ignoreFences source)).filter (!allowed.allows ·)) := by
  dsimp only [classifyWith]
  split
  · next noSource =>
    rw [List.isEmpty_iff.mp noSource, specifiers_scanned_nil]
    rfl
  split
  · next noImport =>
    rw [List.isEmpty_iff.mp noImport]
    rfl
  · next imports =>
    split
    · next notConfigured =>
      -- The list is not asked here, but would refuse everything.
      rw [Bool.not_eq_true'] at notConfigured
      have allRefused : (Import.specifiers (scanned ignoreFences source)).filter
          (!allowed.allows ·) = Import.specifiers (scanned ignoreFences source) :=
        List.filter_eq_self.mpr fun specifier _ => by
          rw [unconfigured notConfigured specifier, Bool.not_false]
      rw [allRefused, notConfigured, ofRefused_of_ne_nil (mt List.isEmpty_iff.mpr imports)]
      rfl
    · next configured =>
      rw [Bool.not_eq_true', Bool.not_eq_false] at configured
      split
      · next noneRefused =>
        rw [noneRefused]
        rfl
      · next someRefused =>
        rw [configured, ofRefused_of_ne_nil someRefused]
        rfl

theorem classifyLeniently_eq_ofRefused (engine : Engine) (patterns : List Text)
    (ignoreFences : Bool) (source : Text) :
    classifyLeniently engine patterns ignoreFences source = ofRefused (!patterns.isEmpty)
      ((Import.specifiers (scanned ignoreFences source)).filter
        (!(CompiledAllowList.lenient engine patterns).allows ·)) :=
  classifyWith_eq_ofRefused CompiledAllowList.allows_lenient_of_unconfigured ignoreFences source

/-- Where an engine that conforms takes all patterns, it leads to the route of the globs. -/
theorem classifyLeniently_eq_classify (conforms : engine.Conforms)
    (taken : ∀ pattern ∈ patterns, CompiledAllowList.Takes engine pattern) (ignoreFences : Bool)
    (source : Text) :
    classifyLeniently engine patterns ignoreFences source =
      classify ⟨patterns⟩ ignoreFences source := by
  rw [classifyLeniently_eq_ofRefused, classify_eq_ofRefused]
  simp only [CompiledAllowList.allows_lenient_eq conforms taken]
  rfl

/-- An engine that conforms compiles the patterns whose expressions fit. A compiled list allows a
specifier of one line if and only if one of the patterns is the specifier with a text in the place
of each star, all its other characters standing for themselves; this is what the globs accept. The
patterns and the compiled list lead to the same route for every document. -/
theorem allows_iff_isFilled (engine : Engine) (conforms : engine.Conforms) (patterns : List Text) :
    ((∀ pattern ∈ patterns, engine.Fits (Glob.expression engine pattern)) →
      ∃ allowed, CompiledAllowList.compile engine patterns = .ok allowed) ∧
    ∀ allowed, CompiledAllowList.compile engine patterns = .ok allowed →
      (∀ specifier, '\n' ∉ specifier → (allowed.allows specifier = true ↔
        ∃ pattern ∈ patterns, Glob.IsFilled pattern specifier)) ∧
      (∀ specifier, allowed.allows specifier = AllowList.allows ⟨patterns⟩ specifier) ∧
      ∀ ignoreFences source,
        classifyLeniently engine patterns ignoreFences source =
          classifyWith allowed ignoreFences source ∧
        classifyWith allowed ignoreFences source = classify ⟨patterns⟩ ignoreFences source := by
  constructor
  · intro fits
    cases result : CompiledAllowList.compile engine patterns with
    | ok allowed => exact ⟨allowed, rfl⟩
    | error fault =>
      obtain ⟨isPattern, tooLarge⟩ := CompiledAllowList.not_fits_of_compile_eq_error conforms result
      exact absurd (fits _ isPattern) tooLarge
  · intro allowed isOk
    obtain ⟨taken, rfl⟩ := CompiledAllowList.compile_eq_ok_iff.mp isOk
    have allows_eq := CompiledAllowList.allows_lenient_eq conforms taken
    refine ⟨fun specifier oneLine => ?_, allows_eq, fun ignoreFences source => ⟨rfl, ?_⟩⟩
    · rw [allows_eq, AllowList.allows, List.any_eq_true]
      exact exists_congr fun pattern => and_congr_right fun _ => Glob.accepts_iff_isFilled oneLine
    · exact classifyLeniently_eq_classify conforms taken ignoreFences source

/-- Patterns with a dot and with parentheses, and a star inside. -/
def Trial.packagePatterns : List Text :=
  ["@scope/pkg.v1/*".toList, "./(a)*.astro".toList]

/-- The dot and the parentheses of the patterns stand for themselves. -/
theorem allows_iff_isFilled_of_packagePatterns :
    Trial.engine.Conforms ∧
    (∀ pattern ∈ Trial.packagePatterns,
      Trial.engine.Fits (Glob.expression Trial.engine pattern)) ∧
    ∃ allowed, CompiledAllowList.compile Trial.engine Trial.packagePatterns = .ok allowed ∧
      '\n' ∉ "@scope/pkg.v1/sub/mod".toList ∧
      allowed.allows "@scope/pkg.v1/sub/mod".toList = true ∧
      '\n' ∉ "@scope/pkgXv1/sub".toList ∧
      (¬ ∃ pattern ∈ Trial.packagePatterns, Glob.IsFilled pattern "@scope/pkgXv1/sub".toList) ∧
      classifyWith allowed true "import A from './(a)/b.astro'\nimport './a.astro'\n".toList =
        .fallback .notAllowed ["./a.astro".toList] := by
  have conforms := Trial.conforms_engine
  have fits : ∀ pattern ∈ Trial.packagePatterns,
      Trial.engine.Fits (Glob.expression Trial.engine pattern) := fun _ _ => trivial
  obtain ⟨compiles, means⟩ := allows_iff_isFilled Trial.engine conforms Trial.packagePatterns
  obtain ⟨allowed, isOk⟩ := compiles fits
  obtain ⟨allows_iff, allows_eq, routes⟩ := means allowed isOk
  have oneLine : '\n' ∉ "@scope/pkgXv1/sub".toList := by decide
  have refused : AllowList.allows ⟨Trial.packagePatterns⟩ "@scope/pkgXv1/sub".toList = false := by
    decide
  refine ⟨conforms, fits, allowed, isOk, by decide, ?_, oneLine, ?_, ?_⟩
  · refine (allows_iff _ (by decide)).mpr ⟨"@scope/pkg.v1/*".toList, by decide, ?_⟩
    exact ⟨["sub/mod".toList], by decide, by decide⟩
  · rw [← allows_iff _ oneLine, allows_eq, refused]
    exact Bool.false_ne_true
  · rw [(routes true _).2]
    decide +kernel

/-- What allows more refuses less. -/
theorem sublist_refused {allows allowsMore : Text → Bool}
    (more : ∀ specifier, allows specifier = true → allowsMore specifier = true)
    (specifiers : List Text) :
    (specifiers.filter (!allowsMore ·)).Sublist (specifiers.filter (!allows ·)) := by
  refine specifiers.monotone_filter_right fun specifier refused => ?_
  rw [Bool.not_eq_true'] at refused ⊢
  exact Bool.eq_false_iff.mpr fun allowed => Bool.eq_false_iff.mp refused (more specifier allowed)

/-- More patterns make a route freer: what keeps a document off the fast path is then a sublist of
what it was, and the fast path stays the fast path. This goes for globs, and for whatever an engine
takes of the patterns. -/
theorem relaxes_of_subset {patterns more : List Text} (included : patterns ⊆ more)
    (ignoreFences : Bool) (source : Text) :
    (classify ⟨more⟩ ignoreFences source).Relaxes (classify ⟨patterns⟩ ignoreFences source) ∧
    ∀ engine : Engine, (classifyLeniently engine more ignoreFences source).Relaxes
      (classifyLeniently engine patterns ignoreFences source) := by
  constructor
  · rw [classify_eq_ofRefused, classify_eq_ofRefused]
    refine relaxes_ofRefused (sublist_refused (fun specifier allowed => ?_) _) _ _
    rw [AllowList.allows, List.any_eq_true] at allowed ⊢
    obtain ⟨pattern, isPattern, accepts⟩ := allowed
    exact ⟨pattern, included isPattern, accepts⟩
  · intro engine
    rw [classifyLeniently_eq_ofRefused, classifyLeniently_eq_ofRefused]
    refine relaxes_ofRefused (sublist_refused (fun specifier allowed => ?_) _) _ _
    rw [CompiledAllowList.allows_lenient_iff] at allowed ⊢
    obtain ⟨pattern, isPattern, occurs⟩ := allowed
    exact ⟨pattern, included isPattern, occurs⟩

/-- A document with two imports. -/
def Trial.twoImports : Text :=
  "import A from './A.astro'\n\nimport 'b'\n\n<A />\n".toList

/-- A first pattern lets one of the imports through, another one the document. -/
theorem relaxes_of_twoImports :
    ([] : List Text) ⊆ ["./*.astro".toList] ∧
    ["./*.astro".toList] ⊆ ["b".toList, "./*.astro".toList] ∧
    (classify ⟨["./*.astro".toList]⟩ true Trial.twoImports).Relaxes
      (classify ⟨[]⟩ true Trial.twoImports) ∧
    (classify ⟨["b".toList, "./*.astro".toList]⟩ true Trial.twoImports).Relaxes
      (classify ⟨["./*.astro".toList]⟩ true Trial.twoImports) ∧
    classify ⟨[]⟩ true Trial.twoImports =
      .fallback .noAllowList ["./A.astro".toList, "b".toList] ∧
    classify ⟨["./*.astro".toList]⟩ true Trial.twoImports = .fallback .notAllowed ["b".toList] ∧
    classify ⟨["b".toList, "./*.astro".toList]⟩ true Trial.twoImports = .fast := by
  have first : ([] : List Text) ⊆ ["./*.astro".toList] := List.nil_subset _
  have second : ["./*.astro".toList] ⊆ ["b".toList, "./*.astro".toList] :=
    List.subset_cons_self _ _
  refine ⟨first, second, (relaxes_of_subset first true Trial.twoImports).1,
    (relaxes_of_subset second true Trial.twoImports).1, ?_, ?_, ?_⟩ <;> decide +kernel

end Route

end MdxBuild
