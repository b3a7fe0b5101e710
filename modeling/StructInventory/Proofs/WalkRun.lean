import Mathlib.Data.List.Find
import StructInventory.Walk

/-!
Runs of a walk. Its loading ends in one of two ways: every directory is loaded, or a first error
ends it, and that is before any visit. The visits are then a matter of the names alone: which
structs are visited does not depend on what becomes of a visit, and neither does the answer of the
walk.
-/

namespace StructInventory

namespace Walker

/-! ### Loading -/

/-- Directories that are loaded in turn, each without an error. -/
inductive Loads (tree : FileTree) (provider : Provider) :
    Loader → List PathText → Loader → Prop where
  | done (loader : Loader) : Loads tree provider loader [] loader
  | next {loader last : Loader} {dir : PathText} {rest : List PathText}
      (parsed : (loader.parse tree provider dir).2 = .ok ())
      (more : Loads tree provider (loader.parse tree provider dir).1 rest last) :
      Loads tree provider loader (dir :: rest) last

section

variable {tree : FileTree} {provider : Provider} {loader last : Loader} {dirs : List PathText}
  {error : InventoryError}

theorem loadDirs_cons (tree : FileTree) (provider : Provider) (loader : Loader) (dir : PathText)
    (rest : List PathText) :
    loadDirs tree provider loader (dir :: rest) =
      (loader.parse tree provider dir).2.bind fun _ =>
        loadDirs tree provider (loader.parse tree provider dir).1 rest := by
  rw [loadDirs]
  generalize loader.parse tree provider dir = call
  obtain ⟨loaded, outcome⟩ := call
  cases outcome <;> rfl

/-- Directories that are loaded without an error lead on to those behind them. -/
theorem Loads.loadDirs_append (loads : Loads tree provider loader dirs last)
    (after : List PathText) :
    loadDirs tree provider loader (dirs ++ after) = loadDirs tree provider last after := by
  induction loads with
  | done => rfl
  | next parsed _ ih =>
    rw [List.cons_append, loadDirs_cons, parsed]
    exact ih

/-- Loading ends with a loader, or at a directory before which all were loaded. -/
theorem loadDirs_cases (tree : FileTree) (provider : Provider) (loader : Loader)
    (dirs : List PathText) :
    (∃ last, Loads tree provider loader dirs last) ∨
      ∃ before dir after last error, dirs = before ++ dir :: after ∧
        Loads tree provider loader before last ∧
        (last.parse tree provider dir).2 = .error error := by
  induction dirs generalizing loader with
  | nil => exact Or.inl ⟨loader, .done loader⟩
  | cons dir rest ih =>
    cases parsed : (loader.parse tree provider dir).2 with
    | error error => exact Or.inr ⟨[], dir, rest, loader, error, rfl, .done loader, parsed⟩
    | ok _ =>
      rcases ih (loader.parse tree provider dir).1 with ⟨last, more⟩ |
        ⟨before, failing, after, last, error, rfl, more, failed⟩
      · exact Or.inl ⟨last, .next parsed more⟩
      · exact Or.inr ⟨dir :: before, failing, after, last, error, rfl, .next parsed more, failed⟩

end

/-- All directories of a walk are listed and loaded. -/
def Loaded (walker : Walker) (tree : FileTree) (loader : Loader) : Prop :=
  ∃ dirs, walker.directories tree = .ok dirs ∧
    Loads tree (.ofTree tree walker.features) {} dirs loader

/-- The directories of a walk cannot be listed, or one of them cannot be loaded. -/
inductive Unloadable (walker : Walker) (tree : FileTree) : InventoryError → Prop where
  | listing {error : InventoryError} (refused : walker.directories tree = .error error) :
      Unloadable walker tree error
  | parsing {error : InventoryError} {before after : List PathText} {dir : PathText}
      {loader : Loader} (listed : walker.directories tree = .ok (before ++ dir :: after))
      (loads : Loads tree (.ofTree tree walker.features) {} before loader)
      (failed : (loader.parse tree (.ofTree tree walker.features) dir).2 = .error error) :
      Unloadable walker tree error

section

variable {walker : Walker} {tree : FileTree}

theorem Loaded.load {loader : Loader} (loaded : walker.Loaded tree loader) :
    walker.load tree = .ok loader := by
  obtain ⟨dirs, listed, loads⟩ := loaded
  have through := loads.loadDirs_append []
  rw [List.append_nil] at through
  rw [Walker.load, listed]
  exact through

theorem Unloadable.load {error : InventoryError} (unloadable : walker.Unloadable tree error) :
    walker.load tree = .error error := by
  cases unloadable with
  | listing refused =>
    rw [Walker.load, refused]
    rfl
  | @parsing before after dir loader listed loads failed =>
    have through := loads.loadDirs_append (dir :: after)
    rw [loadDirs_cons, failed] at through
    rw [Walker.load, listed]
    exact through

theorem loaded_or_unloadable (walker : Walker) (tree : FileTree) :
    (∃ loader, walker.Loaded tree loader) ∨ ∃ error, walker.Unloadable tree error := by
  cases listed : walker.directories tree with
  | error error => exact Or.inr ⟨error, .listing listed⟩
  | ok dirs =>
    rcases loadDirs_cases tree (.ofTree tree walker.features) {} dirs with ⟨loader, loads⟩ |
      ⟨before, dir, after, loader, error, rfl, loads, failed⟩
    · exact Or.inl ⟨loader, dirs, listed, loads⟩
    · exact Or.inr ⟨error, .parsing listed loads failed⟩

end

/-! ### Visiting -/

/-- The structs whose names a walker accepts, with `limitOne` only the first of them. -/
def selected (walker : Walker) (structs : List StructDesc) : List StructDesc :=
  let accepted := structs.filter fun struct => walker.filter.accepts struct.name
  if walker.limitOne then accepted.take 1 else accepted

variable {σ : Type}

/-- Visits that are made in turn, each in the state that the one before it left. -/
inductive Visits (visitor : Visitor σ) : σ → List (StructDesc × VisitResult) → σ → Prop where
  | none (state : σ) : Visits visitor state [] state
  | next {state last : σ} {struct : StructDesc} {rest : List (StructDesc × VisitResult)}
      (more : Visits visitor (visitor state struct).1 rest last) :
      Visits visitor state ((struct, (visitor state struct).2) :: rest) last

section

variable {walker : Walker} {visitor : Visitor σ} {struct : StructDesc}

@[simp] theorem selected_nil (walker : Walker) : walker.selected [] = [] := by simp [selected]

theorem selected_of_refused (refused : walker.filter.accepts struct.name = false)
    (rest : List StructDesc) : walker.selected (struct :: rest) = walker.selected rest := by
  simp [selected, refused]

theorem selected_of_limit (accepted : walker.filter.accepts struct.name = true)
    (limited : walker.limitOne = true) (rest : List StructDesc) :
    walker.selected (struct :: rest) = [struct] := by
  simp [selected, accepted, limited]

theorem selected_of_accepted (accepted : walker.filter.accepts struct.name = true)
    (unlimited : walker.limitOne = false) (rest : List StructDesc) :
    walker.selected (struct :: rest) = struct :: walker.selected rest := by
  simp [selected, accepted, unlimited]

/-- What a loop over structs adds to a report: visits of those that are selected, and that there are
any. -/
structure Adds (walker : Walker) (visitor : Visitor σ) (structs : List StructDesc)
    (before after : WalkReport σ) (made : List (StructDesc × VisitResult)) : Prop where
  visits : after.visits = before.visits ++ made
  chosen : made.map Prod.fst = walker.selected structs
  inTurn : Visits visitor before.state made after.state
  matched : after.matched = (before.matched || !(walker.selected structs).isEmpty)

/-- A struct that is visited, with all that the structs behind it add. -/
theorem Adds.visit {structs rest : List StructDesc} {report after : WalkReport σ}
    {made : List (StructDesc × VisitResult)}
    (more : Adds walker visitor rest (report.visit visitor struct) after made)
    (first : walker.selected structs = struct :: walker.selected rest) :
    Adds walker visitor structs report after
      ((struct, (visitor report.state struct).2) :: made) where
  visits := by rw [more.visits, WalkReport.visit, List.append_assoc, List.singleton_append]
  chosen := by rw [List.map_cons, more.chosen, first]
  inTurn := .next more.inTurn
  matched := by simp [more.matched, WalkReport.visit, first]

theorem visitAccepted_adds (walker : Walker) (visitor : Visitor σ) (structs : List StructDesc)
    (report : WalkReport σ) :
    ∃ made, Adds walker visitor structs report (walker.visitAccepted visitor report structs)
      made := by
  have nothing (report : WalkReport σ) : Adds walker visitor [] report report [] :=
    ⟨(List.append_nil _).symm, by simp, .none _, by simp⟩
  induction structs generalizing report with
  | nil => exact ⟨[], nothing report⟩
  | cons struct rest ih =>
    rw [visitAccepted]
    split
    next accepted =>
      split
      next limited =>
        -- Nothing behind the first visit counts.
        have first := selected_of_limit accepted limited rest
        exact ⟨_, (nothing _).visit (by rw [first, selected_nil])⟩
      next unlimited =>
        obtain ⟨made, more⟩ := ih (report.visit visitor struct)
        have first := selected_of_accepted accepted (Bool.eq_false_iff.mpr unlimited) rest
        exact ⟨_, more.visit first⟩
    next refused =>
      obtain ⟨made, more⟩ := ih report
      have same := selected_of_refused (Bool.eq_false_iff.mpr refused) rest
      exact ⟨made, more.visits, by rw [same, more.chosen], more.inTurn, by rw [same, more.matched]⟩

end

/-! ### Walks -/

/-- A walk makes its visits behind its loading. An error there is its answer, and no visit has been
made. Else the structs that the walker selects are visited in turn, whatever becomes of each visit,
and the answer is whether there are any. -/
theorem visits_follow_loading (walker : Walker) (tree : FileTree) (visitor : Visitor σ)
    (state : σ) :
    (∀ error, walker.Unloadable tree error →
      walker.run tree visitor state = (⟨state, [], false⟩, .error error) ∧
      walker.walk tree visitor state = .error error) ∧
    (∀ loader, walker.Loaded tree loader → ∃ report,
      walker.run tree visitor state =
        (report, .ok (!(walker.selected loader.structs).isEmpty)) ∧
      walker.walk tree visitor state = .ok report ∧
      report.visits.map Prod.fst = walker.selected loader.structs ∧
      Visits visitor state report.visits report.state) ∧
    ((∃ loader, walker.Loaded tree loader) ∨ ∃ error, walker.Unloadable tree error) := by
  refine ⟨fun error unloadable => ?_, fun loader loaded => ?_, loaded_or_unloadable walker tree⟩
  · have ran : walker.run tree visitor state = (⟨state, [], false⟩, .error error) := by
      simp only [run, unloadable.load]
    refine ⟨ran, ?_⟩
    rw [walk, ran]
    rfl
  · obtain ⟨made, added⟩ := visitAccepted_adds walker visitor loader.structs ⟨state, [], false⟩
    have visits :
        (walker.visitAccepted visitor ⟨state, [], false⟩ loader.structs).visits = made := by
      simpa using added.visits
    have ran : walker.run tree visitor state =
        (walker.visitAccepted visitor ⟨state, [], false⟩ loader.structs,
          .ok (!(walker.selected loader.structs).isEmpty)) := by
      simp only [run, loaded.load, added.matched, Bool.false_or]
    refine ⟨_, ran, ?_, ?_, ?_⟩
    · rw [walk, ran]
      rfl
    · rw [visits, added.chosen]
    · rw [visits]
      exact added.inTurn

/-- Two walks of one tree by a visitor that counts and of which the first visit fails. In one
directory both structs are visited; the other has a file that cannot be read, and nothing is
counted. -/
theorem visits_follow_loading_counted :
    let tree : FileTree := ⟨.dir [
      ("p", .dir [("a.rs", .file (some "struct A; struct B;"))]),
      ("q", .dir [("c.rs", .file (some "struct C;")), ("d", .dir [("d.rs", .file none)])])], []⟩
    let visitor : Visitor Nat := fun count struct =>
      (count + 1, if count = 0 then .failed (.structNotFound struct.name) else .done)
    let whole : Walker := ⟨⟨"p"⟩, true, .everything, false, []⟩
    let broken : Walker := ⟨⟨"q"⟩, true, .everything, false, []⟩
    (∃ loader, whole.Loaded tree loader ∧
      (whole.selected loader.structs).map StructDesc.name = ["A", "B"] ∧
      ∃ report, whole.walk tree visitor 0 = .ok report ∧
        report.visits.map Prod.fst = whole.selected loader.structs) ∧
    ∃ error, broken.Unloadable tree error ∧
      broken.run tree visitor 0 = (⟨0, [], false⟩, .error error) := by
  intro tree visitor whole broken
  have loaded : whole.Loaded tree (Loader.parse tree (.ofTree tree []) {} ⟨"p"⟩).1 :=
    ⟨[⟨"p"⟩], by decide +kernel, .next (by decide +kernel) (.done _)⟩
  have unloadable : broken.Unloadable tree
      (.resolution ⟨"q/d/d.rs"⟩ ⟨⟨"q/d/d.rs"⟩, .file .notText⟩) :=
    .parsing (show broken.directories tree = .ok ([⟨"q"⟩] ++ ⟨"q/d"⟩ :: []) by decide +kernel)
      (.next (by decide +kernel) (.done _)) (by decide +kernel)
  obtain ⟨failing, succeeding, -⟩ := visits_follow_loading whole tree visitor 0
  obtain ⟨report, -, walked, visited, -⟩ := succeeding _ loaded
  have stopped := (visits_follow_loading broken tree visitor 0).1 _ unloadable
  exact ⟨⟨_, loaded, by decide +kernel, report, walked, visited⟩, _, unloadable, stopped.1⟩

end Walker

end StructInventory
