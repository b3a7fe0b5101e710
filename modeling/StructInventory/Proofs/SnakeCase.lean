import StructInventory.Proofs.StructName

/-!
Words of a name with underscores between them. They are found in two passes: the first looks for
capitals before small letters, and in doing so passes over letters that may be needed to find the
next; the second looks for capitals behind small letters and digits. What the first passes over is
always such a small letter, so the two come to one rule about a capital and its neighbours.
-/

namespace StructInventory

open Text

/-! ### The rule -/

/-- A word begins at a capital behind the first character, when a small letter or digit is before
it or a small letter behind it. -/
def beginsWord (name : List Char) (index : Nat) : Bool :=
  1 ≤ index && name[index]?.any isAsciiUpper &&
    (name[index - 1]?.any (fun c => isAsciiLower c || isAsciiDigit c) ||
      name[index + 1]?.any isAsciiLower)

/-- A name with an underscore before each word that begins in it. -/
def markWords (name : List Char) : List Char :=
  name.zipIdx.flatMap fun (c, index) => if beginsWord name index then ['_', c] else [c]

/-- Whether a word begins with a text, behind a character. -/
def wordAfter (before : Char) : List Char → Bool
  | [] => false
  | c :: rest => isAsciiUpper c &&
      (isAsciiLower before || isAsciiDigit before || rest.head?.any isAsciiLower)

/-- The rule as one pass over a name. -/
def markInTurn : List Char → List Char
  | [] => []
  | c :: rest => c :: (if wordAfter c rest then '_' :: markInTurn rest else markInTurn rest)

/-- Whether a word begins is seen from the last character before it. -/
theorem beginsWord_append (before : List Char) (c : Char) (rest : List Char) :
    beginsWord (before ++ c :: rest) before.length =
      before.getLast?.any (wordAfter · (c :: rest)) := by
  rcases List.eq_nil_or_concat before with rfl | ⟨early, last, rfl⟩
  · rfl
  · have behind : (early ++ last :: c :: rest)[early.length + 1 + 1]? = rest.head? := by
      rw [List.getElem?_append_right (by omega), List.head?_eq_getElem?,
        show early.length + 1 + 1 - early.length = 2 by omega]
      rfl
    simp [beginsWord, wordAfter, behind]

theorem markWords_eq (name : List Char) : markWords name = markInTurn name := by
  have behind (before rest : List Char) : ((rest.zipIdx before.length).flatMap fun (c, index) =>
      if beginsWord (before ++ rest) index then ['_', c] else [c]) =
      if before.getLast?.any (wordAfter · rest) then '_' :: markInTurn rest
      else markInTurn rest := by
    induction rest generalizing before with
    | nil => simp [wordAfter, markInTurn]
    | cons c rest ih =>
      have next := ih (before ++ [c])
      rw [List.length_append, List.length_singleton, List.append_assoc, List.singleton_append,
        List.getLast?_concat, Option.any_some] at next
      rw [List.zipIdx_cons, List.flatMap_cons, next]
      dsimp only
      rw [beginsWord_append, markInTurn]
      split <;> rfl
  have whole := behind [] name
  simpa [markWords] using whole

/-! ### Two passes -/

theorem head?_splitWords (inRun : Bool) (text : List Char) :
    (splitWords inRun text).head? = text.head? := by
  fun_cases splitWords inRun text <;> rfl

theorem splitBoundaries_cons (c : Char) (text : List Char) :
    splitBoundaries (c :: text) = c :: (if (isAsciiLower c || isAsciiDigit c) &&
      text.head?.any isAsciiUpper then '_' :: splitBoundaries text else splitBoundaries text) := by
  cases text with
  | nil => simp [splitBoundaries]
  | cons next rest =>
    rw [splitBoundaries, List.head?_cons, Option.any_some]
    exact (apply_ite (List.cons c) _ _ _).symm

theorem isAsciiUpper_of_isAsciiLower {c : Char} (small : isAsciiLower c = true) :
    isAsciiUpper c = false := by
  simp only [isAsciiLower, isAsciiUpper, Bool.and_eq_true, decide_eq_true_eq, Bool.and_eq_false_iff,
    decide_eq_false_iff_not] at small ⊢
  refine .inr fun capital => ?_
  exact absurd (Char.le_trans small.1 capital) (by decide)

/-- Where the first pass puts no underscore before a text, both passes together put one there just
when the rule does, provided that the rule has no other reason than what the second pass sees. -/
theorem splitBoundaries_step {inRun : Bool} {c : Char} {rest : List Char}
    (ih : splitBoundaries (splitWords inRun rest) = markInTurn rest)
    (seen : wordAfter c rest = ((isAsciiLower c || isAsciiDigit c) && rest.head?.any isAsciiUpper)) :
    splitBoundaries (c :: splitWords inRun rest) = markInTurn (c :: rest) := by
  rw [splitBoundaries_cons, head?_splitWords, ih, markInTurn, seen]

theorem splitBoundaries_splitWords (inRun : Bool) {text : List Char} (oneLine : '\n' ∉ text) :
    splitBoundaries (splitWords inRun text) = markInTurn text := by
  fun_induction splitWords inRun text with
  | case1 => rfl
  | case2 inRun c rest small ih =>
    -- A run of small letters goes on: a capital behind it is left to the second pass.
    have small : isAsciiLower c = true := (Bool.and_eq_true _ _ ▸ small).2
    refine splitBoundaries_step (ih fun later => oneLine (List.mem_cons_of_mem _ later)) ?_
    cases rest <;> simp [wordAfter, small]
  | case3 inRun c other capital small behind found ih =>
    obtain ⟨⟨-, upper⟩, lower⟩ : (c ≠ '\n' ∧ isAsciiUpper capital = true) ∧
        isAsciiLower small = true := by simpa using found
    have marked := ih fun later => oneLine (by simp [later])
    have notUpper := isAsciiUpper_of_isAsciiLower lower
    have underscore : isAsciiUpper '_' = false ∧ isAsciiLower '_' = false ∧
        isAsciiDigit '_' = false := by decide
    rw [splitBoundaries_cons, splitBoundaries_cons, splitBoundaries_cons, head?_splitWords, marked]
    simp [markInTurn, wordAfter, upper, lower, notUpper, underscore]
  | case4 inRun c other capital small behind missed ih =>
    have here : c ≠ '\n' := fun feed => oneLine (by simp [feed])
    refine splitBoundaries_step (ih fun later => oneLine (List.mem_cons_of_mem _ later)) ?_
    -- No word begins here for the sake of the small letter behind the capital.
    have inner : (isAsciiUpper capital && isAsciiLower small) = false := by
      simpa [here] using missed
    grind [wordAfter]
  | case5 inRun c other rest short ih =>
    refine splitBoundaries_step (ih fun later => oneLine (List.mem_cons_of_mem _ later)) ?_
    match rest with
    | [] => simp [wordAfter]
    | [capital] => simp [wordAfter, Bool.and_comm]
    | capital :: small :: behind => exact absurd rfl (short capital small behind)

/-! ### Plain ASCII -/

namespace Text

/-- The small counterpart of a plain ASCII character. -/
def smallAscii (c : Char) : Char := if isAsciiUpper c then Char.ofNat (c.toNat + 32) else c

/-- Only the first run of the table is about plain ASCII. -/
theorem runs_lower : CaseMap.lower.runs.head? = some ⟨0x41, 0x5A, 1, 0x61⟩ ∧
    ∀ run ∈ CaseMap.lower.runs.tail, 128 ≤ run.first := by
  unfold CaseMap.lower
  rw [runs_ofText]
  decide +kernel

theorem apply_lower_ascii {c : Char} (ascii : isAscii c = true) :
    CaseMap.lower.apply c = smallAscii c := by
  obtain ⟨first, others⟩ := runs_lower
  obtain ⟨rest, spelled⟩ := List.head?_eq_some_iff.mp first
  rw [spelled, List.tail_cons] at others
  have low : c.toNat < 128 := by simpa [isAscii] using ascii
  have beyond : rest.findSome? (·.image? c.toNat) = none := by
    refine List.findSome?_eq_none_iff.mpr fun run listed => ?_
    have bound := others run listed
    simp only [CaseRun.image?, ite_eq_right_iff, Bool.and_eq_true, decide_eq_true_eq]
    omega
  have upper : isAsciiUpper c = true ↔ 0x41 ≤ c.toNat ∧ c.toNat ≤ 0x5A := by
    simp only [isAsciiUpper, Bool.and_eq_true, decide_eq_true_eq]
    exact Iff.rfl
  have image : (CaseRun.mk 0x41 0x5A 1 0x61).image? c.toNat =
      if isAsciiUpper c then some (c.toNat + 32) else none := by
    simp only [CaseRun.image?, Nat.mod_one, upper, decide_true, Bool.and_true, Bool.and_eq_true,
      decide_eq_true_eq]
    split
    next capital => rw [show 0x61 + (c.toNat - 0x41) = c.toNat + 32 by omega]
    next => rfl
  unfold CaseMap.apply smallAscii
  rw [spelled, List.findSome?_cons, beyond, image]
  cases isAsciiUpper c <;> rfl

theorem smallAscii_facts {c : Char} (ascii : isAscii c = true) :
    isAscii (smallAscii c) = true ∧ isAsciiUpper (smallAscii c) = false ∧
      (smallAscii c = '_' ↔ c = '_') := by
  have each : ∀ code < 128, isAscii (smallAscii (Char.ofNat code)) = true ∧
      isAsciiUpper (smallAscii (Char.ofNat code)) = false ∧
      (smallAscii (Char.ofNat code) = '_' ↔ Char.ofNat code = '_') := by decide +kernel
  have here := each c.toNat (by simpa [isAscii] using ascii)
  rwa [Char.ofNat_toNat] at here

theorem lowercaseFrom_ascii (before : List Char) {text : List Char}
    (ascii : ∀ c ∈ text, isAscii c = true) :
    lowercaseFrom before text = text.map smallAscii := by
  induction text generalizing before with
  | nil => rfl
  | cons c rest ih =>
    obtain ⟨plain, others⟩ := List.forall_mem_cons.mp ascii
    have here : lowerChar before c rest = [smallAscii c] := by
      unfold lowerChar
      rw [if_neg (by rintro rfl; simp [isAscii] at plain),
        if_neg (by rintro rfl; simp [isAscii] at plain), apply_lower_ascii plain]
    rw [lowercaseFrom, here, ih _ others]
    rfl

end Text

/-! ### What casing keeps -/

/-- A text without its underscores. -/
def bare (text : List Char) : List Char := text.filter (· ≠ '_')

theorem bare_underscore (text : List Char) : bare ('_' :: text) = bare text := by simp [bare]

theorem bare_cons_congr (c : Char) {text text' : List Char} (same : bare text = bare text') :
    bare (c :: text) = bare (c :: text') := by
  unfold bare at same ⊢
  rw [List.filter_cons, List.filter_cons, same]

theorem bare_splitWords (inRun : Bool) (text : List Char) :
    bare (splitWords inRun text) = bare text := by
  fun_induction splitWords inRun text with
  | case1 => rfl
  | case2 inRun c rest small ih => exact bare_cons_congr c ih
  | case3 inRun c other capital small behind found ih =>
    apply bare_cons_congr
    rw [bare_underscore]
    exact bare_cons_congr capital ih
  | case4 inRun c other capital small behind missed ih => exact bare_cons_congr c ih
  | case5 inRun c other rest short ih => exact bare_cons_congr c ih

theorem bare_splitBoundaries (text : List Char) : bare (splitBoundaries text) = bare text := by
  fun_induction splitBoundaries text with
  | case1 => rfl
  | case2 c => rfl
  | case3 c next rest edge ih =>
    apply bare_cons_congr
    rw [bare_underscore, ih]
  | case4 c next rest inner ih => exact bare_cons_congr c ih

theorem splitWords_of_small (inRun : Bool) {text : List Char}
    (small : ∀ c ∈ text, isAsciiUpper c = false) : splitWords inRun text = text := by
  fun_induction splitWords inRun text with
  | case1 => rfl
  | case2 inRun c rest _ ih => rw [ih (List.forall_mem_cons.mp small).2]
  | case3 inRun c other capital small' behind found ih => simp [small capital (by simp)] at found
  | case4 inRun c other capital small' behind missed ih => rw [ih (List.forall_mem_cons.mp small).2]
  | case5 inRun c other rest short ih => rw [ih (List.forall_mem_cons.mp small).2]

theorem splitBoundaries_of_small {text : List Char} (small : ∀ c ∈ text, isAsciiUpper c = false) :
    splitBoundaries text = text := by
  fun_induction splitBoundaries text with
  | case1 => rfl
  | case2 c => rfl
  | case3 c next rest edge ih => simp [small next (by simp)] at edge
  | case4 c next rest inner ih => rw [ih (List.forall_mem_cons.mp small).2]

theorem ascii_splitBoundaries {text : List Char} (ascii : ∀ c ∈ text, isAscii c = true) :
    ∀ c ∈ splitBoundaries (splitWords false text), isAscii c = true := by
  intro c member
  rcases mem_splitBoundaries member with rfl | member
  · decide
  · rcases mem_splitWords member with rfl | member
    · decide
    · exact ascii c member

theorem underscoreCase_ascii {name : String} (ascii : ∀ c ∈ name.toList, isAscii c = true) :
    (underscoreCase name).toList =
      (splitBoundaries (splitWords false name.toList)).map smallAscii := by
  rw [underscoreCase, lowercase, String.toList_ofList, String.toList_ofList,
    lowercaseFrom_ascii [] (ascii_splitBoundaries ascii)]

/-- A name in small letters is left as it is. -/
theorem underscoreCase_of_small {name : String} (ascii : ∀ c ∈ name.toList, isAscii c = true)
    (small : ∀ c ∈ name.toList, isAsciiUpper c = false) : underscoreCase name = name := by
  rw [← String.toList_inj, underscoreCase_ascii ascii, splitWords_of_small false small,
    splitBoundaries_of_small small]
  conv_rhs => rw [← List.map_id name.toList]
  refine List.map_congr_left fun c member => ?_
  simp [smallAscii, small c member]

theorem bare_map_smallAscii {text : List Char} (ascii : ∀ c ∈ text, isAscii c = true) :
    bare (text.map smallAscii) = (bare text).map smallAscii := by
  unfold bare
  rw [List.filter_map]
  congr 1
  refine List.filter_congr fun c member => ?_
  simp [(smallAscii_facts (ascii c member)).2.2]

/-- Two passes over a name of one line come to one rule: an underscore goes before each capital
behind the first character that has a small letter or digit before it or a small letter behind it.
A plain ASCII name is cased once and for all, and loses and gains nothing but underscores. -/
theorem underscoreCase_in_one_pass (name : String) :
    ('\n' ∉ name.toList →
      underscoreCase name = lowercase (String.ofList (markWords name.toList))) ∧
    ((∀ c ∈ name.toList, isAscii c = true) →
      underscoreCase (underscoreCase name) = underscoreCase name ∧
      (underscoreCase name).toList.filter (· ≠ '_') =
        (lowercase name).toList.filter (· ≠ '_')) := by
  constructor
  · intro oneLine
    rw [underscoreCase, splitBoundaries_splitWords false oneLine, markWords_eq]
  · intro ascii
    have cased := underscoreCase_ascii ascii
    have marked := ascii_splitBoundaries ascii
    constructor
    · have facts : ∀ c ∈ (underscoreCase name).toList,
          isAscii c = true ∧ isAsciiUpper c = false := by
        intro c member
        rw [cased] at member
        obtain ⟨d, inside, rfl⟩ := List.mem_map.mp member
        obtain ⟨plain, small, -⟩ := smallAscii_facts (marked d inside)
        exact ⟨plain, small⟩
      exact underscoreCase_of_small (fun c member => (facts c member).1)
        fun c member => (facts c member).2
    · have lowered : (lowercase name).toList = name.toList.map smallAscii := by
        rw [lowercase, String.toList_ofList, lowercaseFrom_ascii [] ascii]
      show bare _ = bare _
      rw [cased, lowered, bare_map_smallAscii marked, bare_map_smallAscii ascii,
        bare_splitBoundaries, bare_splitWords]

/-- The first pass takes the letters up to `b` together, and so misses the capital behind them. -/
theorem underscoreCase_in_one_pass_missed :
    splitWords false "xAbCdEFGh2I".toList = "x_AbCdEF_Gh2I".toList ∧
    underscoreCase "xAbCdEFGh2I" = lowercase "x_Ab_Cd_EF_Gh2_I" ∧
    underscoreCase (underscoreCase "xAbCdEFGh2I") = underscoreCase "xAbCdEFGh2I" := by
  obtain ⟨rule, ascii⟩ := underscoreCase_in_one_pass "xAbCdEFGh2I"
  have marked : String.ofList (markWords "xAbCdEFGh2I".toList) = "x_Ab_Cd_EF_Gh2_I" := by
    decide +kernel
  have plain : "xAbCdEFGh2I".toList.all isAscii = true := by decide +kernel
  have cased := rule (by decide)
  rw [marked] at cased
  exact ⟨by decide +kernel, cased, (ascii (List.all_eq_true.mp plain)).1⟩

end StructInventory
