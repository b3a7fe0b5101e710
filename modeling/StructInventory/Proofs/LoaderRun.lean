import StructInventory.Descriptor

/-!
What a loader holds after any number of calls, on trees that may change between them and with a
provider that may answer anything. A call is a series of questions to the provider, each about a
file that has not been seen. Every property of a call is shown for one question and then carried
along the series: what was loaded stays, no file is loaded twice, and a call that succeeded has
nothing left to ask when it is repeated.
-/

namespace StructInventory

theorem PathText.same_iff {p q : PathText} : p.same q = true ↔ p.components = q.components := by
  simp [same]

namespace Loader

theorem hasSeen_iff {loader : Loader} {file : PathText} :
    loader.hasSeen file = true ↔ ∃ known ∈ loader.seen, known.components = file.components := by
  simp [hasSeen, PathText.same_iff]

/-- Entries belong to different files; all of these have been seen, and have a scan in the package
that they were loaded with. -/
structure Consistent (loader : Loader) : Prop where
  distinct : loader.entries.Pairwise fun entry other => entry.file.same other.file = false
  seen : ∀ entry ∈ loader.entries, loader.hasSeen entry.file = true
  scanned : ∀ entry ∈ loader.entries, (entry.package.scan? entry.file).isSome = true

/-- Nothing that a loader holds is lost or changed. -/
structure Grows (loader later : Loader) : Prop where
  entries : loader.entries <+: later.entries
  seen : loader.seen <+: later.seen

namespace Grows

theorem refl (loader : Loader) : loader.Grows loader :=
  ⟨List.prefix_rfl, List.prefix_rfl⟩

theorem trans {loader later last : Loader} (first : loader.Grows later)
    (second : later.Grows last) : loader.Grows last :=
  ⟨first.entries.trans second.entries, first.seen.trans second.seen⟩

theorem hasSeen {loader later : Loader} (grows : loader.Grows later) {file : PathText}
    (seen : loader.hasSeen file = true) : later.hasSeen file = true := by
  obtain ⟨known, member, same⟩ := hasSeen_iff.mp seen
  exact hasSeen_iff.mpr ⟨known, grows.seen.subset member, same⟩

theorem structs {loader later : Loader} (grows : loader.Grows later) :
    loader.structs <+: later.structs := by
  obtain ⟨added, grown⟩ := grows.entries
  refine ⟨added.flatMap structsOf, ?_⟩
  rw [Loader.structs, Loader.structs, ← grown, List.flatMap_append]

end Grows

theorem lookup_of_mem_structsOf {entry : LoadedFile} {struct : StructDesc}
    (listed : struct ∈ structsOf entry) :
    struct.package = entry.package ∧
      entry.package.package.scope.lookup struct.name = some struct.named ∧
      struct.named.isStruct = true ∧ struct.file.same entry.file = true := by
  unfold structsOf at listed
  split at listed
  · simp at listed
  · obtain ⟨name, _, found⟩ := List.mem_filterMap.mp listed
    obtain ⟨named, looked, chosen⟩ := Option.bind_eq_some_iff.mp found
    split at chosen
    next kept =>
      cases chosen
      have sameName : named.name = name := by simpa using List.find?_some looked
      rw [Bool.and_eq_true] at kept
      exact ⟨rfl, by rw [StructDesc.name, sameName, looked], kept⟩
    next => cases chosen

/-! ### Taking up the files of a package -/

theorem see_entries (loader : Loader) (file : PathText) :
    (loader.see file).entries = loader.entries := by
  unfold see
  split <;> rfl

theorem see_grows (loader : Loader) (file : PathText) : loader.Grows (loader.see file) := by
  refine ⟨by simp [see_entries], ?_⟩
  unfold see
  split
  · exact List.prefix_rfl
  · exact List.prefix_append loader.seen [file]

theorem hasSeen_see (loader : Loader) (file : PathText) : (loader.see file).hasSeen file = true := by
  unfold see
  split
  next known => exact known
  next => exact hasSeen_iff.mpr ⟨file, by simp, rfl⟩

theorem Consistent.see {loader : Loader} (consistent : loader.Consistent) (file : PathText) :
    (loader.see file).Consistent where
  distinct := by
    rw [see_entries]
    exact consistent.distinct
  seen := by
    intro entry member
    rw [see_entries] at member
    exact (see_grows loader file).hasSeen (consistent.seen entry member)
  scanned := by
    rw [see_entries]
    exact consistent.scanned

theorem takeUp_grows (package : LoadedPackage) (loader : Loader) (file : PathText) :
    loader.Grows (takeUp package loader file) := by
  unfold takeUp
  split
  · exact .refl loader
  · exact ⟨List.prefix_append loader.entries _, (see_grows loader file).seen⟩

/-- A file that is taken up is new, since those of the entries have all been seen. -/
theorem Consistent.takeUp {loader : Loader} (consistent : loader.Consistent)
    (package : LoadedPackage) (file : PathText) : (takeUp package loader file).Consistent := by
  unfold Loader.takeUp
  split
  · exact consistent
  next fresh =>
    simp only [Bool.or_eq_true, not_or, Bool.not_eq_true, Option.isNone_eq_false_iff] at fresh
    obtain ⟨scanned, unseen⟩ := fresh
    refine ⟨?_, ?_, ?_⟩
    · refine List.pairwise_append.mpr ⟨consistent.distinct, List.pairwise_singleton _ _, ?_⟩
      intro entry member added isAdded
      rw [List.mem_singleton.mp isAdded]
      -- Were it the file of an entry, it would have been seen.
      refine Bool.eq_false_iff.mpr fun repeated => ?_
      rw [PathText.same_iff] at repeated
      obtain ⟨known, listed, same⟩ := hasSeen_iff.mp (consistent.seen entry member)
      rw [hasSeen_iff.mpr ⟨known, listed, same.trans repeated⟩] at unseen
      cases unseen
    · intro entry member
      rcases List.mem_append.mp member with old | new
      · exact (see_grows loader file).hasSeen (consistent.seen entry old)
      · rw [List.mem_singleton.mp new]
        exact hasSeen_see loader file
    · intro entry member
      rcases List.mem_append.mp member with old | new
      · exact consistent.scanned entry old
      · rw [List.mem_singleton.mp new]
        exact scanned

theorem takeUpAll_grows (package : LoadedPackage) (files : List PathText) (loader : Loader) :
    loader.Grows (files.foldl (takeUp package) loader) := by
  induction files generalizing loader with
  | nil => exact .refl loader
  | cons file rest ih => exact (takeUp_grows package loader file).trans (ih _)

theorem Consistent.takeUpAll {loader : Loader} (consistent : loader.Consistent)
    (package : LoadedPackage) (files : List PathText) :
    (files.foldl (Loader.takeUp package) loader).Consistent := by
  induction files generalizing loader with
  | nil => exact consistent
  | cons file rest ih => exact ih (consistent.takeUp package file)

theorem takeUpAll_asked (package : LoadedPackage) (files : List PathText) (loader : Loader) :
    (files.foldl (takeUp package) loader).asked = loader.asked := by
  induction files generalizing loader with
  | nil => rfl
  | cons file rest ih =>
    rw [List.foldl_cons, ih]
    unfold takeUp see
    split
    · rfl
    · split <;> rfl

theorem see_asked (loader : Loader) (file : PathText) :
    (loader.see file).asked = loader.asked := by
  unfold see
  split <;> rfl

/-! ### One question -/

theorem accept_grows (loader : Loader) (file : PathText) (answer : Except Diagnostic Resolution) :
    loader.Grows (loader.accept file answer).1 := by
  unfold accept
  split
  · exact .refl loader
  · exact see_grows loader file
  · exact (takeUpAll_grows _ _ loader).trans (see_grows _ file)
  · exact .refl loader

theorem accept_asked (loader : Loader) (file : PathText) (answer : Except Diagnostic Resolution) :
    (loader.accept file answer).1.asked = loader.asked := by
  unfold accept
  split
  · rfl
  · exact see_asked loader file
  · exact (see_asked _ file).trans (takeUpAll_asked _ _ loader)
  · rfl

theorem Consistent.accept {loader : Loader} (consistent : loader.Consistent) (file : PathText)
    (answer : Except Diagnostic Resolution) : (loader.accept file answer).1.Consistent := by
  unfold Loader.accept
  split
  · exact consistent
  · exact consistent.see file
  · exact (consistent.takeUpAll _ _).see file
  · exact consistent

/-- A file whose question was answered has been seen, also when it is no member of its package. -/
theorem hasSeen_of_accept {loader : Loader} {file : PathText}
    {answer : Except Diagnostic Resolution} (done : (loader.accept file answer).2 = .ok ()) :
    (loader.accept file answer).1.hasSeen file = true := by
  unfold accept at done ⊢
  split
  · simp at done
  · exact hasSeen_see loader file
  · exact hasSeen_see _ file
  · simp at done

variable {provider : Provider}

theorem loadFile_grows (provider : Provider) (loader : Loader) (file : PathText) :
    loader.Grows (loader.loadFile provider file).1 := by
  obtain ⟨entries, seen⟩ := accept_grows { loader with asked := file :: loader.asked } file
    (provider loader.asked.length file)
  exact ⟨entries, seen⟩

theorem loadFile_asked (provider : Provider) (loader : Loader) (file : PathText) :
    (loader.loadFile provider file).1.asked = file :: loader.asked :=
  accept_asked { loader with asked := file :: loader.asked } file _

theorem Consistent.loadFile {loader : Loader} (consistent : loader.Consistent)
    (provider : Provider) (file : PathText) : (loader.loadFile provider file).1.Consistent := by
  have asked : Consistent { loader with asked := file :: loader.asked } :=
    ⟨consistent.distinct, consistent.seen, consistent.scanned⟩
  exact asked.accept file _

/-! ### What holds of all entries -/

section

variable {holds : LoadedFile → Prop} {loader : Loader}

theorem forall_takeUpAll {package : LoadedPackage} {files : List PathText}
    (taken : ∀ file ∈ files, holds ⟨file, package⟩) (held : ∀ entry ∈ loader.entries, holds entry) :
    ∀ entry ∈ (files.foldl (takeUp package) loader).entries, holds entry := by
  induction files generalizing loader with
  | nil => exact held
  | cons file rest ih =>
    obtain ⟨first, others⟩ := List.forall_mem_cons.mp taken
    refine ih others ?_
    unfold takeUp
    split
    · exact held
    · intro entry member
      rcases List.mem_append.mp member with old | new
      · exact held entry old
      · rw [List.mem_singleton.mp new]
        exact first

/-- All that the provider's answers about a file can bring in has a property. -/
def Brings (provider : Provider) (holds : LoadedFile → Prop) (file : PathText) : Prop :=
  ∀ count package files, provider count file = .ok ⟨[package], files⟩ →
    ∀ path ∈ package.files, holds ⟨path, .ofResolution package files⟩

theorem Brings.loadFile {file : PathText} (brings : Brings provider holds file)
    (held : ∀ entry ∈ loader.entries, holds entry) :
    ∀ entry ∈ (loader.loadFile provider file).1.entries, holds entry := by
  unfold Loader.loadFile accept
  dsimp only
  split
  · exact held
  · rw [see_entries]
    exact held
  next package files answered =>
    rw [see_entries]
    exact forall_takeUpAll (brings _ package files answered) held
  · exact held

theorem forall_loadFiles {files : List PathText}
    (brings : ∀ file ∈ files, Brings provider holds file)
    (held : ∀ entry ∈ loader.entries, holds entry) :
    ∀ entry ∈ (loader.loadFiles provider files).1.entries, holds entry := by
  induction files generalizing loader with
  | nil => exact held
  | cons file rest ih =>
    obtain ⟨first, others⟩ := List.forall_mem_cons.mp brings
    unfold loadFiles
    split
    · exact ih others held
    · have step := first.loadFile held
      split
      -- A file that fails ends the reading, with what was loaded until then.
      next after done => exact ih others (by simpa only [done] using step)
      next after error failed => simpa only [failed] using step

theorem forall_parse {tree : FileTree} {path : PathText}
    (brings : ∀ files, tree.eligibleFiles (directoryOf tree path) = .ok files →
      ∀ file ∈ files, Brings provider holds file)
    (held : ∀ entry ∈ loader.entries, holds entry) :
    ∀ entry ∈ (loader.parse tree provider path).1.entries, holds entry := by
  unfold parse
  dsimp only
  split
  · exact held
  next files listed => exact forall_loadFiles (brings files listed) held

end

/-! ### Questions in turn -/

/-- A file that the provider was asked about, and how its answer was taken. -/
structure Question where
  file : PathText
  outcome : Except InventoryError Unit

/-- How questions lead from one loader to another. Each is about a file that has not been seen when
it is put. -/
inductive Asks (provider : Provider) : Loader → List Question → Loader → Prop where
  | nil (loader : Loader) : Asks provider loader [] loader
  | cons {loader next later : Loader} {file : PathText} {outcome : Except InventoryError Unit}
      {rest : List Question} (unseen : loader.hasSeen file = false)
      (step : loader.loadFile provider file = (next, outcome))
      (after : Asks provider next rest later) : Asks provider loader (⟨file, outcome⟩ :: rest) later

namespace Asks

variable {loader later last : Loader} {questions further : List Question}

theorem append (first : Asks provider loader questions later)
    (second : Asks provider later further last) :
    Asks provider loader (questions ++ further) last := by
  induction first with
  | nil => exact second
  | cons unseen step _ ih => exact .cons unseen step (ih second)

theorem grows (asks : Asks provider loader questions later) : loader.Grows later := by
  induction asks with
  | nil loader => exact .refl loader
  | @cons loader next later file outcome rest _ step _ ih =>
    have first := loadFile_grows provider loader file
    rw [step] at first
    exact first.trans ih

theorem consistent (asks : Asks provider loader questions later)
    (before : loader.Consistent) : later.Consistent := by
  induction asks with
  | nil => exact before
  | @cons loader next later file outcome rest _ step _ ih =>
    have first := before.loadFile provider file
    rw [step] at first
    exact ih first

theorem asked (asks : Asks provider loader questions later) :
    later.asked = (questions.map Question.file).reverse ++ loader.asked := by
  induction asks with
  | nil => rfl
  | @cons loader next later file outcome rest _ step _ ih =>
    have first := loadFile_asked provider loader file
    rw [step] at first
    dsimp only at first
    simp [ih, first]

/-- A question that was answered leaves its file seen from then on. -/
theorem hasSeen (asks : Asks provider loader questions later) :
    ∀ question ∈ questions, question.outcome = .ok () → later.hasSeen question.file = true := by
  induction asks with
  | nil => simp
  | @cons loader next later file outcome rest _ step after ih =>
    intro question member done
    rcases List.mem_cons.mp member with rfl | member
    · have seen : next.hasSeen file = true := by
        have answered : (loader.loadFile provider file).2 = .ok () := by rw [step, ← done]
        have seen := hasSeen_of_accept answered
        rwa [← loadFile, step] at seen
      exact after.grows.hasSeen seen
    · exact ih question member done

end Asks

/-! ### Calls -/

theorem loadFiles_asks (provider : Provider) (loader : Loader) (files : List PathText) :
    ∃ questions, Asks provider loader questions (loader.loadFiles provider files).1 := by
  induction files generalizing loader with
  | nil => exact ⟨[], .nil loader⟩
  | cons file rest ih =>
    unfold loadFiles
    split
    · exact ih loader
    next unseen =>
      rw [Bool.not_eq_true] at unseen
      split
      next next step =>
        obtain ⟨questions, asks⟩ := ih next
        exact ⟨_, .cons unseen step asks⟩
      next next error step => exact ⟨_, .cons unseen step (.nil next)⟩

theorem parse_asks (tree : FileTree) (provider : Provider) (loader : Loader) (path : PathText) :
    ∃ questions, Asks provider loader questions (loader.parse tree provider path).1 := by
  unfold parse
  dsimp only
  split
  · exact ⟨[], .nil loader⟩
  · exact loadFiles_asks provider loader _

/-- Files that have all been seen are passed over. -/
theorem loadFiles_of_seen {loader : Loader} {files : List PathText}
    (seen : ∀ file ∈ files, loader.hasSeen file = true) :
    loader.loadFiles provider files = (loader, .ok ()) := by
  induction files with
  | nil => rfl
  | cons file rest ih =>
    obtain ⟨first, others⟩ := List.forall_mem_cons.mp seen
    rw [loadFiles, if_pos first]
    exact ih others

/-- Loading files succeeds only if each of them has been seen in the end. -/
theorem hasSeen_of_loadFiles {loader : Loader} {files : List PathText}
    (done : (loader.loadFiles provider files).2 = .ok ()) :
    ∀ file ∈ files, (loader.loadFiles provider files).1.hasSeen file = true := by
  induction files generalizing loader with
  | nil => simp
  | cons file rest ih =>
    rw [List.forall_mem_cons]
    unfold loadFiles at done ⊢
    split at done
    next seen =>
      obtain ⟨questions, asks⟩ := loadFiles_asks provider loader rest
      rw [if_pos seen]
      exact ⟨asks.grows.hasSeen seen, ih done⟩
    next unseen =>
      -- The file is seen once it is answered, and what comes after only adds.
      rw [if_neg unseen]
      split at done
      next next step =>
        have answered : (loader.loadFile provider file).2 = .ok () := by rw [step]
        have seen := hasSeen_of_accept answered
        rw [← loadFile, step] at seen
        obtain ⟨questions, asks⟩ := loadFiles_asks provider next rest
        exact ⟨asks.grows.hasSeen seen, ih done⟩
      · cases done

/-- Whatever was loaded since, a call that succeeded changes nothing when it is repeated on the same
tree. -/
theorem parse_again {tree : FileTree} {loader later : Loader} {path : PathText}
    (done : (loader.parse tree provider path).2 = .ok ())
    (grows : (loader.parse tree provider path).1.Grows later) :
    later.parse tree provider path = (later, .ok ()) := by
  unfold parse at done grows ⊢
  dsimp only at done grows ⊢
  split at done
  · cases done
  next files listed =>
    rw [listed] at grows
    exact loadFiles_of_seen fun file member =>
      grows.hasSeen (hasSeen_of_loadFiles done file member)

/-- One call after another, each on the tree as it is then. -/
def parseAll (provider : Provider) (loader : Loader) (calls : List (FileTree × PathText)) :
    Loader :=
  calls.foldl (fun loader call => (loader.parse call.1 provider call.2).1) loader

theorem parseAll_asks (provider : Provider) (loader : Loader)
    (calls : List (FileTree × PathText)) :
    ∃ questions, Asks provider loader questions (parseAll provider loader calls) := by
  induction calls generalizing loader with
  | nil => exact ⟨[], .nil loader⟩
  | cons call rest ih =>
    obtain ⟨first, asksFirst⟩ := parse_asks call.1 provider loader call.2
    obtain ⟨others, asksOthers⟩ := ih (loader.parse call.1 provider call.2).1
    exact ⟨first ++ others, asksFirst.append asksOthers⟩

theorem consistent_empty : Consistent {} :=
  ⟨List.Pairwise.nil, (List.forall_mem_nil _), (List.forall_mem_nil _)⟩

/-- After any calls a loader is consistent, and has come there by questions about files that had not
been seen; the files of those that were answered have been seen since. One more call only adds to
what the loader holds, again by such questions. If it succeeds, then repeating it on the same tree
asks nothing and changes nothing, whatever calls come in between. -/
theorem calls_keep_loader_consistent (provider : Provider) (calls : List (FileTree × PathText)) :
    (parseAll provider {} calls).Consistent ∧
    (∃ questions, Asks provider {} questions (parseAll provider {} calls) ∧
      (parseAll provider {} calls).asked = (questions.map Question.file).reverse ∧
      ∀ question ∈ questions, question.outcome = .ok () →
        (parseAll provider {} calls).hasSeen question.file = true) ∧
    ∀ tree path after outcome,
      (parseAll provider {} calls).parse tree provider path = (after, outcome) →
      (∃ questions, Asks provider (parseAll provider {} calls) questions after) ∧
      (parseAll provider {} calls).Grows after ∧
      (parseAll provider {} calls).structs <+: after.structs ∧
      (outcome = .ok () → ∀ between, (parseAll provider after between).parse tree provider path =
        (parseAll provider after between, .ok ())) := by
  obtain ⟨questions, asks⟩ := parseAll_asks provider {} calls
  refine ⟨asks.consistent consistent_empty, ⟨questions, asks, ?_, asks.hasSeen⟩, ?_⟩
  · simpa using asks.asked
  · intro tree path after outcome step
    obtain ⟨further, asksFurther⟩ := parse_asks tree provider (parseAll provider {} calls) path
    rw [step] at asksFurther
    refine ⟨⟨further, asksFurther⟩, asksFurther.grows, asksFurther.grows.structs, ?_⟩
    -- All files of the listing have been seen, and stay so through the calls in between.
    rintro rfl between
    obtain ⟨_, asksBetween⟩ := parseAll_asks provider after between
    refine parse_again (by rw [step]) ?_
    rw [step]
    exact asksBetween.grows

end Loader

end StructInventory
