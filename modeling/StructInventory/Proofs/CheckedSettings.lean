import StructInventory.CommandLine.Run
import StructInventory.Proofs.LiteralPattern
import StructInventory.Proofs.WalkRun

/-!
Settings that have been checked. A layer passes if it selects structs in just one way and asks for
nothing that does not go with it. A selection is then one of three, and only that of a plain name
may come with a fixed file name; since this is also the one that ends with its first struct, no walk
writes to the file twice.
-/

namespace StructInventory

/-! ### Walks with a limit -/

namespace Walker

variable {σ : Type} {walker : Walker}

/-- A walk is made of visits of structs that the walker selects. -/
theorem visits_of_run (walker : Walker) (tree : FileTree) (visitor : Visitor σ) (state : σ) :
    let report := (walker.run tree visitor state).1
    Visits visitor state report.visits report.state ∧
      ∃ structs, report.visits.map Prod.fst = walker.selected structs := by
  unfold run
  cases walker.load tree with
  | error error => exact ⟨.none state, [], by simp⟩
  | ok loader =>
    obtain ⟨made, added⟩ := visitAccepted_adds walker visitor loader.structs ⟨state, [], false⟩
    have visits := added.visits
    rw [List.nil_append] at visits
    dsimp only
    rw [visits]
    exact ⟨added.inTurn, loader.structs, added.chosen⟩

theorem length_selected_le (limited : walker.limitOne = true) (structs : List StructDesc) :
    (walker.selected structs).length ≤ 1 := by
  simp [selected, limited]

theorem length_visits_le (walker : Walker) (limited : walker.limitOne = true) (tree : FileTree)
    (visitor : Visitor σ) (state : σ) :
    (walker.run tree visitor state).1.visits.length ≤ 1 := by
  obtain ⟨-, structs, chosen⟩ := visits_of_run walker tree visitor state
  rw [← List.length_map, chosen]
  exact length_selected_le limited structs

end Walker

/-! ### Files that are written -/

namespace Generator

/-- A visit writes one file at most. -/
theorem length_written_visit (generator : Generator) (outcome : Outcome) (struct : StructDesc) :
    (generator.visit outcome struct).1.written.length ≤ outcome.written.length + 1 := by
  unfold visit
  split
  · exact Nat.le_succ _
  · split
    · exact Nat.le_succ _
    · unfold writeFile
      dsimp only
      split
      · exact Nat.le_succ _
      · split
        · exact Nat.le_succ _
        · exact Nat.le_refl _

theorem length_written_visits {generator : Generator} {outcome last : Outcome}
    {made : List (StructDesc × VisitResult)}
    (visits : Walker.Visits generator.visit outcome made last) :
    last.written.length ≤ outcome.written.length + made.length := by
  induction visits with
  | none => exact Nat.le_refl _
  | @next outcome last struct rest more ih =>
    have first := length_written_visit generator outcome struct
    rw [List.length_cons]
    omega

end Generator

/-! ### Selections -/

namespace Layer

/-- The ways to select structs: all of them, those that a pattern matches, or one by its name. -/
inductive Selects (layer : Layer) : Selection → Prop where
  | all (whole : layer.all = some true) (unnamed : given layer.name = none)
      (unfixed : given layer.fileName = none) : Selects layer ⟨none, .everything, false⟩
  | pattern {name : String} {filter : NameFilter} (part : layer.all ≠ some true)
      (named : given layer.name = some name) (isPattern : isPattern name = true)
      (read : NameFilter.ofPattern? name = some filter)
      (unfixed : given layer.fileName = none) : Selects layer ⟨some name, filter, false⟩
  | name {name : String} (part : layer.all ≠ some true) (named : given layer.name = some name)
      (plain : isPattern name = false) : Selects layer ⟨some name, .exact name, true⟩

variable {layer : Layer} {selection : Selection} {settings : Settings}

theorem selection_eq_ok_iff : layer.selection = .ok selection ↔ layer.Selects selection := by
  have whole : layer.all.getD false = true ↔ layer.all = some true := by
    cases layer.all <;> simp
  have absent {text : Option String} (missing : ¬text.isSome = true) : text = none := by
    simpa using missing
  unfold Layer.selection selectName
  constructor
  · -- Every branch that does not refuse the layer is one of the three ways.
    intro selected
    dsimp only at selected
    split at selected
    next => cases selected
    next => cases selected
    next unnamed all =>
      split at selected
      next => cases selected
      next unfixed =>
        cases selected
        exact .all (whole.mp all) unnamed (absent unfixed)
    next name named notAll =>
      have part : layer.all ≠ some true := fun all => by simp [whole.mpr all] at notAll
      split at selected
      next isPattern =>
        split at selected
        next => cases selected
        next filter read =>
          split at selected
          next => cases selected
          next unfixed =>
            cases selected
            exact .pattern part named isPattern read (absent unfixed)
      next plain =>
        cases selected
        exact .name part named (Bool.eq_false_iff.mpr plain)
  · intro selects
    cases selects with
    | all all unnamed unfixed => simp [whole.mpr all, unnamed, unfixed]
    | pattern part named isPattern read unfixed =>
      simp [Bool.eq_false_iff.mpr (mt whole.mp part), named, isPattern, read, unfixed]
    | name part named plain => simp [Bool.eq_false_iff.mpr (mt whole.mp part), named, plain]

theorem depth_of_describeOptions {describe : DescribeOptions}
    (done : layer.describeOptions = .ok describe) :
    layer.depth ≠ some 0 ∧ 1 ≤ describe.depth := by
  unfold describeOptions at done
  dsimp only at done
  split at done
  next => cases done
  next depth nonzero set =>
    cases done
    have positive : depth ≠ 0 := nonzero
    exact ⟨by simp [set, positive], Nat.one_le_iff_ne_zero.mpr positive⟩
  next unset =>
    cases done
    refine ⟨by simp [unset], ?_⟩
    cases layer.shape.getD .flat <;> decide

theorem exists_describeOptions (deep : layer.depth ≠ some 0) :
    ∃ describe, layer.describeOptions = .ok describe := by
  unfold describeOptions
  dsimp only
  split
  next zero => exact absurd zero deep
  next => exact ⟨_, rfl⟩
  next => exact ⟨_, rfl⟩

/-- What settings have of the layer they were made from, as far as its checks go. -/
structure Checked (layer : Layer) (settings : Settings) : Prop where
  selects : layer.Selects settings.selection
  deep : layer.depth ≠ some 0
  depth : 1 ≤ settings.describe.depth
  recursive : layer.all = some true → settings.recursive = true
  fileName : settings.fileName = given layer.fileName

theorem checked_of_resolve (done : layer.resolve = .ok settings) : layer.Checked settings := by
  unfold resolve at done
  cases selected : layer.selection with
  | error error => simp [selected, bind, Except.bind] at done
  | ok selection =>
    cases described : layer.describeOptions with
    | error error => simp [selected, described, bind, Except.bind] at done
    | ok describe =>
      simp only [selected, described, bind, Except.bind, pure, Except.pure, Except.ok.injEq] at done
      subst done
      obtain ⟨deep, depth⟩ := depth_of_describeOptions described
      exact ⟨selection_eq_ok_iff.mp selected, deep, depth, fun all => by simp [all], rfl⟩

theorem exists_resolve (selects : layer.Selects selection) (deep : layer.depth ≠ some 0) :
    ∃ settings, layer.resolve = .ok settings ∧ settings.selection = selection := by
  obtain ⟨describe, described⟩ := exists_describeOptions deep
  unfold resolve
  rw [selection_eq_ok_iff.mpr selects, described]
  exact ⟨_, rfl, rfl⟩

/-- What a layer has to keep to. It selects a name or all structs, but not both. A fixed file name
goes with a plain name only. A pattern can be read, and the depth is not zero. -/
structure Coherent (layer : Layer) : Prop where
  selection : (given layer.name).isSome = true ↔ layer.all ≠ some true
  fixed : (given layer.fileName).isSome = true → layer.all ≠ some true ∧
    ∀ name, given layer.name = some name → isPattern name = false
  readable : ∀ name, given layer.name = some name → isPattern name = true →
    (Pattern.read? name).isSome = true
  deep : layer.depth ≠ some 0

theorem Selects.coherent (selects : layer.Selects selection) (deep : layer.depth ≠ some 0) :
    layer.Coherent := by
  cases selects with
  | all whole unnamed unfixed =>
    exact ⟨by simp [whole, unnamed], by simp [unfixed], by simp [unnamed], deep⟩
  | @pattern name filter part named isPattern read unfixed =>
    have readable : (Pattern.read? name).isSome = true := by
      obtain ⟨regex, read, -⟩ := Option.map_eq_some_iff.mp read
      exact Option.isSome_of_eq_some read
    exact ⟨by simp [part, named], by simp [unfixed], by simp [named, readable], deep⟩
  | name part named plain =>
    exact ⟨by simp [part, named], by simp [part, named, plain], by simp [named, plain], deep⟩

theorem Selects.unlimited (selects : layer.Selects selection) (all : layer.all = some true) :
    selection.limitOne = false := by
  cases selects with
  | all => rfl
  | pattern part => exact absurd all part
  | name part => exact absurd all part

theorem Selects.limited (selects : layer.Selects selection)
    (fixed : (given layer.fileName).isSome = true) : selection.limitOne = true := by
  cases selects with
  | all _ _ unfixed => simp [unfixed] at fixed
  | pattern _ _ _ _ unfixed => simp [unfixed] at fixed
  | name => rfl

theorem Coherent.exists_selects (coherent : layer.Coherent) :
    ∃ selection, layer.Selects selection := by
  by_cases all : layer.all = some true
  · have unnamed : ¬(given layer.name).isSome = true := fun named =>
      coherent.selection.mp named all
    have unfixed : ¬(given layer.fileName).isSome = true := fun fixed =>
      (coherent.fixed fixed).1 all
    exact ⟨_, .all all (by simpa using unnamed) (by simpa using unfixed)⟩
  · obtain ⟨name, named⟩ := Option.isSome_iff_exists.mp (coherent.selection.mpr all)
    cases isPattern : isPattern name with
    | false => exact ⟨_, .name all named isPattern⟩
    | true =>
      obtain ⟨regex, read⟩ := Option.isSome_iff_exists.mp (coherent.readable name named isPattern)
      have unfixed : ¬(given layer.fileName).isSome = true := fun fixed => by
        simp [(coherent.fixed fixed).2 name named] at isPattern
      have filter : NameFilter.ofPattern? name = some ⟨name, regex⟩ := by
        rw [NameFilter.ofPattern?, read, Option.map_some]
      exact ⟨_, .pattern all named isPattern filter (by simpa using unfixed)⟩

/-- Settings are made just of coherent layers. Their depth is at least one, all structs are looked
for everywhere and without a limit, and a fixed file name comes with the limit to one struct. With
such a name, a walk of any tree from any directory makes one visit at most and nothing but visits,
and whatever generator is visited with, no more than one file is written. -/
theorem resolve_checks (layer : Layer) :
    ((∃ settings, layer.resolve = .ok settings) ↔ layer.Coherent) ∧
    ∀ settings, layer.resolve = .ok settings →
      1 ≤ settings.describe.depth ∧
      (layer.all = some true →
        settings.recursive = true ∧ settings.selection.limitOne = false) ∧
      (settings.fileName.isSome = true →
        settings.selection.limitOne = true ∧
        ∀ (tree : FileTree) (baseDir : PathText) (generator : Generator),
          let report :=
            ((settings.walker baseDir).run tree generator.visit { tree := tree }).1
          Walker.Visits generator.visit { tree := tree } report.visits report.state ∧
            report.visits.length ≤ 1 ∧ report.state.written.length ≤ 1) := by
  refine ⟨⟨?_, ?_⟩, fun settings done => ?_⟩
  · rintro ⟨settings, done⟩
    have checked := checked_of_resolve done
    exact checked.selects.coherent checked.deep
  · intro coherent
    obtain ⟨selection, selects⟩ := coherent.exists_selects
    obtain ⟨settings, done, -⟩ := exists_resolve selects coherent.deep
    exact ⟨settings, done⟩
  · have checked := checked_of_resolve done
    refine ⟨checked.depth, fun all => ⟨checked.recursive all, checked.selects.unlimited all⟩, ?_⟩
    intro fixed
    rw [checked.fileName] at fixed
    have limited := checked.selects.limited fixed
    refine ⟨limited, fun tree baseDir generator => ?_⟩
    -- A visit writes one file at most, and the limit allows for one visit.
    obtain ⟨visits, -⟩ := (settings.walker baseDir).visits_of_run tree generator.visit
      { tree := tree }
    have short := (settings.walker baseDir).length_visits_le limited tree generator.visit
      { tree := tree }
    have written := Generator.length_written_visits visits
    refine ⟨visits, short, ?_⟩
    rw [List.length_nil] at written
    omega

/-- Two structs of a name in one tree, and a file that is fixed for them: one of them is written. -/
theorem resolve_checks_fixed :
    let layer : Layer := { name := some "Foo", fileName := some "out", recursive := some true }
    let tree : FileTree := ⟨.dir [("p", .dir [("a.rs", .file (some "struct Foo;")),
      ("q", .dir [("b.rs", .file (some "struct Foo;"))])])], []⟩
    layer.Coherent ∧ ∃ settings, layer.resolve = .ok settings ∧ settings.fileName = some "out" ∧
      settings.selection.limitOne = true ∧ 1 ≤ settings.describe.depth ∧
      let report := ((settings.walker ⟨"p"⟩).run tree (settings.generator ⟨"p"⟩).visit
        { tree := tree }).1
      report.visits.length ≤ 1 ∧
        report.state.written.map (fun file => file.1.text) = ["./typeinfo/out"] := by
  intro layer tree
  obtain ⟨exact, good⟩ := resolve_checks layer
  obtain ⟨settings, done, fixed, written⟩ : ∃ settings, layer.resolve = .ok settings ∧
      settings.fileName = some "out" ∧
      ((settings.walker ⟨"p"⟩).run tree (settings.generator ⟨"p"⟩).visit
        { tree := tree }).1.state.written.map (fun file => file.1.text) = ["./typeinfo/out"] :=
    ⟨_, rfl, rfl, by decide +kernel⟩
  obtain ⟨deep, -, once⟩ := good settings done
  obtain ⟨limited, walks⟩ := once (by rw [fixed]; rfl)
  exact ⟨exact.mp ⟨settings, done⟩, settings, done, fixed, limited, deep,
    (walks tree ⟨"p"⟩ (settings.generator ⟨"p"⟩)).2.1, written⟩

end Layer

end StructInventory
