import StructInventory.Proofs.ReaderRun

/-!
What reading attributes notes. Attributes are hash signs with brackets behind them. Of what stands in
the brackets only a value behind an equals sign is read as code, so only in the braces of such a
value do declarations end.
-/

namespace StructInventory

namespace Token

def isEquals : Token → Bool
  | punct mark _ _ _ => mark = '='
  | _ => false

/-- The edges of braces in the value that an attribute in brackets sets. -/
def settingEdges : Token → List Pos
  | group .bracket inside _ _ _ => bracedEdgesOf (inside.dropWhile (!isEquals ·))
  | _ => []

theorem bracedEdgesOf_dropWhile_subset (test : Token → Bool) (tokens : List Token) :
    bracedEdgesOf (tokens.dropWhile test) ⊆ bracedEdgesOf tokens := by
  have whole : bracedEdgesOf tokens =
      bracedEdgesOf (tokens.takeWhile test) ++ bracedEdgesOf (tokens.dropWhile test) := by
    rw [← bracedEdgesOf_append, List.takeWhile_append_dropWhile]
  rw [whole]
  exact List.subset_append_right _ _

theorem bracedEdgesOf_subset_dropWhile {test : Token → Bool} {token : Token}
    (stops : test token = false) (front back : List Token) :
    bracedEdgesOf back ⊆ bracedEdgesOf ((front ++ token :: back).dropWhile test) := by
  induction front with
  | nil =>
    rw [List.nil_append, List.dropWhile_cons_of_neg (by simp [stops]), bracedEdgesOf]
    exact List.subset_append_right _ _
  | cons first front ih =>
    rw [List.cons_append, List.dropWhile_cons]
    split
    · exact ih
    · refine List.Subset.trans ih (List.Subset.trans (bracedEdgesOf_dropWhile_subset _ _) ?_)
      rw [bracedEdgesOf]
      exact List.subset_append_right _ _

theorem settingEdges_subset (token : Token) : token.settingEdges ⊆ token.edges := by
  unfold settingEdges
  split
  next inside start closing stop =>
    refine List.Subset.trans (bracedEdgesOf_dropWhile_subset _ _)
      (List.Subset.trans (bracedEdgesOf_subset inside) ?_)
    intro pos edge
    simp [edges, edge]
  · simp

/-- Hash signs with brackets behind them. -/
inductive Attributes : List Token → Prop where
  | nil : Attributes []
  | cons {joint : Bool} {start stop opening closing finish : Pos} {inside rest : List Token}
      (more : Attributes rest) :
      Attributes (.punct '#' joint start stop ::
        .group .bracket inside opening closing finish :: rest)

/-- The last tokens are an attribute of what comes behind them. -/
def EndsAttribute (tokens : List Token) : Prop :=
  ∃ front joint start stop inside opening closing finish,
    tokens = front ++ [.punct '#' joint start stop, .group .bracket inside opening closing finish]

theorem EndsAttribute.behind {tokens : List Token} (ends : EndsAttribute tokens)
    (front : List Token) : EndsAttribute (front ++ tokens) := by
  obtain ⟨early, joint, start, stop, inside, opening, closing, finish, rfl⟩ := ends
  exact ⟨front ++ early, joint, start, stop, inside, opening, closing, finish,
    (List.append_assoc _ _ _).symm⟩

theorem Attributes.endsAttribute {tokens : List Token} (attributes : Attributes tokens)
    (some : tokens ≠ []) : EndsAttribute tokens := by
  induction attributes with
  | nil => exact absurd rfl some
  | @cons joint start stop opening closing finish inside rest more ih =>
    by_cases last : rest = []
    · subst last
      exact ⟨[], joint, start, stop, inside, opening, closing, finish, rfl⟩
    · exact (ih last).behind [_, _]

/-- What is left of attributes when others are taken off behind them. -/
theorem Attributes.of_append {front back : List Token} (whole : Attributes (front ++ back))
    (behind : Attributes back) : Attributes front := by
  generalize same : front ++ back = tokens at whole
  induction whole generalizing front with
  | nil =>
    obtain ⟨rfl, -⟩ := List.append_eq_nil_iff.mp same
    exact .nil
  | cons more ih =>
    match front with
    | [] => exact .nil
    | [hash] =>
      obtain ⟨-, rfl⟩ := List.cons.inj same
      cases behind
    | hash :: tag :: front =>
      simp only [List.cons_append, List.cons.injEq] at same
      obtain ⟨rfl, rfl, rest⟩ := same
      exact .cons (ih rest)

end Token

/-! ### Readers that note nothing -/

namespace Reading

variable {declares : Bool} {α β : Type} {reader : Reading declares α}

def Unmarked (reader : Reading declares α) : Prop :=
  ∀ before after value, reader.run before = .ok (value, after) → after.marks = before.marks

theorem unmarked_pure (value : α) : (pure value : Reading declares α).Unmarked := by
  rintro before after value ⟨⟩
  rfl

theorem unmarked_ask (question : Cursor → α) :
    (Reader.ask question : Reading declares α).Unmarked := by
  rintro before after value ⟨⟩
  rfl

theorem unmarked_fail : (Reader.fail : Reading declares α).Unmarked := by
  rintro before after value ⟨⟩

theorem unmarked_next (accept : Token → Option (α × List Token)) :
    (Reader.next accept).Unmarked := by
  intro before after value done
  obtain ⟨token, shown, takes, -⟩ := Reader.exists_takes_of_next done
  exact takes.marks

theorem Unmarked.bind {next : α → Reading declares β} (first : reader.Unmarked)
    (second : ∀ value, (next value).Unmarked) : (reader >>= next).Unmarked := by
  intro before after value done
  obtain ⟨given, middle, ran, rest⟩ := run_bind_eq_ok.mp done
  rw [second given _ _ _ rest, first _ _ _ ran]

theorem Unmarked.ite {condition : Prop} [Decidable condition] {yes no : Reading declares α}
    (first : yes.Unmarked) (second : no.Unmarked) :
    (if condition then yes else no).Unmarked := by
  split
  · exact first
  · exact second

theorem Unmarked.collect {step : Reading declares (Option (α × Bool))} (unmarked : step.Unmarked) :
    (Reader.collect step).Unmarked := by
  intro before after value done
  rw [Reader.run_collect] at done
  generalize before.rest.length + 1 = bound at done
  induction bound generalizing before value with
  | zero =>
    cases done
    rfl
  | succ bound ih =>
    obtain ⟨answer, middle, ran, rest⟩ := run_bind_eq_ok.mp done
    rw [← unmarked _ _ _ ran]
    match answer with
    | none =>
      cases rest
      rfl
    | some (found, false) =>
      cases rest
      rfl
    | some (found, true) =>
      obtain ⟨others, _, more, ⟨⟩⟩ := run_bind_eq_ok.mp rest
      exact ih _ _ more

theorem unmarked_eatMarks (marks : List Char) : (Reader.eatMarks marks).Unmarked := by
  induction marks with
  | nil => exact unmarked_pure ()
  | cons c marks ih => exact (unmarked_next _).bind fun _ => ih

theorem unmarked_punct? (marks : String) : (Reader.punct? marks).Unmarked := by
  refine (unmarked_ask _).bind fun found => .ite ?_ (unmarked_pure _)
  exact (unmarked_eatMarks _).bind fun _ => unmarked_pure _

end Reading

/-! ### Attributes -/

namespace Grammar

open Reader Reading

variable {g : Grammar} {before after : Cursor}

theorem unmarked_plainPath : plainPath.Unmarked := by
  refine (unmarked_punct? _).bind fun leading => ?_
  refine (Unmarked.collect ?_).bind fun segments => ?_
  · refine (unmarked_ask _).bind fun found => .ite ?_ (unmarked_pure _)
    refine (unmarked_next _).bind fun word => ?_
    exact (unmarked_punct? _).bind fun more => unmarked_pure _
  · split
    · exact unmarked_pure _
    · exact unmarked_fail

theorem unmarked_conditionPath : conditionPath.Unmarked := by
  refine (unmarked_ask _).bind fun found => .ite ?_ unmarked_plainPath
  exact (unmarked_next _).bind fun word => unmarked_pure _

/-- A value is noted in only inside its braces. -/
theorem run_settingValue {value : Option String}
    (done : (settingValue g).run before = .ok (value, after)) :
    ∃ joint start stop behind, before.rest = .punct '=' joint start stop :: behind ∧
      ∀ mark ∈ after.marks, mark ∈ before.marks ∨ mark ∈ Token.bracedEdgesOf behind := by
  obtain ⟨_, middle, ran, rest⟩ := run_bind_eq_ok.mp done
  obtain ⟨joint, start, stop, takes⟩ := run_punct_single rfl ran
  obtain ⟨passed, marked, passes⟩ := Reading.orderly _ rest
  refine ⟨joint, start, stop, middle.rest, takes.rest, fun mark noted => ?_⟩
  rw [passes.marks, takes.marks] at noted
  rcases List.mem_append.mp noted with noted | noted
  · rcases passes.placed mark noted with braced | ⟨loud, -⟩
    · right
      rw [passes.rest, Token.bracedEdgesOf_append]
      exact List.mem_append_left _ braced
    · cases loud
  · exact .inl noted

theorem run_attributeBody {found : Option Condition}
    (done : (attributeBody g).run before = .ok (found, after)) :
    ∀ mark ∈ after.marks, mark ∈ before.marks ∨
      mark ∈ Token.bracedEdgesOf (before.rest.dropWhile (!Token.isEquals ·)) := by
  obtain ⟨path, middle, ran, rest⟩ := run_bind_eq_ok.mp done
  have same := unmarked_conditionPath _ _ _ ran
  obtain ⟨passed, marked, passes⟩ := conditionPath.orderly ran
  rw [run_look_bind] at rest
  split at rest
  · -- Arguments are kept as tokens, and nothing in them is noted.
    obtain ⟨⟨delimiter, inside⟩, closed, ran, rest⟩ := run_bind_eq_ok.mp rest
    have kept : after.marks = before.marks := by
      refine Eq.trans ?_ ((unmarked_next _ _ _ _ ran).trans same)
      exact (Unmarked.ite (unmarked_pure _) (unmarked_pure _)) _ _ _ rest
    intro mark noted
    exact .inl (kept ▸ noted)
  · rw [run_look_bind] at rest
    split at rest
    · -- A value is read as an expression, and items in its blocks are noted.
      obtain ⟨_, _, ran, ⟨⟩⟩ := run_bind_eq_ok.mp rest
      obtain ⟨value, ran⟩ := run_discard_eq_ok.mp ran
      obtain ⟨joint, start, stop, behind, ahead, placed⟩ := run_settingValue ran
      intro mark noted
      rw [passes.rest, ahead, ← same]
      refine (placed mark noted).imp_right fun braced => ?_
      exact Token.bracedEdgesOf_subset_dropWhile rfl _ _ braced
    · cases rest
      intro mark noted
      exact .inl (same ▸ noted)

/-- Attributes are read as a whole, and noted in only in the braces of their values. -/
theorem run_outerAttributes {found : List Condition}
    (done : (outerAttributes g).run before = .ok (found, after)) :
    ∃ attributes, Token.Attributes attributes ∧ before.rest = attributes ++ after.rest ∧
      ∀ mark ∈ after.marks, mark ∈ before.marks ∨
        ∃ token ∈ attributes, mark ∈ token.settingEdges := by
  obtain ⟨values, _, ran, ⟨⟩⟩ := run_bind_eq_ok.mp done
  have listed := sequence_of_upTo ran
  clear done ran
  induction listed with
  | nil => exact ⟨[], .nil, rfl, fun _ noted => .inl noted⟩
  | @cons before middle after value rest first more ih =>
    obtain ⟨_, hashed, ran, first⟩ := run_bind_eq_ok.mp first
    obtain ⟨joint, start, stop, hash⟩ := run_punct_single rfl ran
    obtain ⟨inside, opening, closing, inner, final, entered⟩ := exists_entered first
    obtain ⟨finish, ahead, -⟩ := entered.rest
    obtain ⟨attributes, list, behind, placed⟩ := ih
    refine ⟨.punct '#' joint start stop :: .group .bracket inside opening closing finish :: attributes,
      .cons list, by rw [hash.rest, ahead, behind]; rfl, fun mark noted => ?_⟩
    -- A position was noted before, in the value of this attribute, or in that of a later one.
    rcases placed mark noted with noted | ⟨token, member, noted⟩
    · rw [entered.marks] at noted
      rcases run_attributeBody entered.ran mark noted with noted | noted
      · left
        rw [entered.opened] at noted
        exact hash.marks ▸ noted
      · rw [entered.within] at noted
        exact .inr ⟨.group .bracket inside opening closing finish, by simp, noted⟩
    · exact .inr ⟨token, by simp [member], noted⟩

end Grammar

end StructInventory
