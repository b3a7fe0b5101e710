import StructInventory.Text.Pos
import StructInventory.Token.Word

/-!
Tokens of a source text. Brackets are matched: a bracketed group is one token that holds the tokens
between its delimiters.
-/

namespace StructInventory

inductive Delimiter where
  | paren
  | bracket
  | brace
  deriving DecidableEq, Repr

/-- A punctuation character is `joint` when it belongs together with the one after it, as the two
of `->` do. The name of a lifetime keeps its quote. -/
inductive Token where
  | word (word : Word) (start stop : Pos)
  | punct (mark : Char) (joint : Bool) (start stop : Pos)
  | lifetime (name : String) (start stop : Pos)
  | literal (text : String) (start stop : Pos)
  | group (delimiter : Delimiter) (inside : List Token) (start closing stop : Pos)
  deriving Repr, Inhabited

namespace Token

def start : Token → Pos
  | word _ p _ | punct _ _ p _ | lifetime _ p _ | literal _ p _ | group _ _ p _ _ => p

def stop : Token → Pos
  | word _ _ p | punct _ _ _ p | lifetime _ _ p | literal _ _ p | group _ _ _ _ p => p

mutual

/-- The number of tokens in a token, itself counted. -/
def size : Token → Nat
  | group _ inside _ _ _ => count inside + 1
  | word .. | punct .. | lifetime .. | literal .. => 1

/-- The number of tokens in a sequence, those inside groups counted too. -/
def count : List Token → Nat
  | [] => 0
  | token :: rest => token.size + count rest

end

/-! ### Edges -/

mutual

/-- Where a token and those inside it begin and end. -/
def edges : Token → List Pos
  | group _ inside start _ stop => start :: stop :: edgesOf inside
  | word _ start stop | punct _ _ start stop | lifetime _ start stop | literal _ start stop =>
    [start, stop]

def edgesOf : List Token → List Pos
  | [] => []
  | token :: rest => token.edges ++ edgesOf rest

end

mutual

/-- The edges of braces and of what is inside them. -/
def bracedEdges : Token → List Pos
  | group .brace inside start _ stop => start :: stop :: edgesOf inside
  | group .paren inside _ _ _ | group .bracket inside _ _ _ => bracedEdgesOf inside
  | word .. | punct .. | lifetime .. | literal .. => []

def bracedEdgesOf : List Token → List Pos
  | [] => []
  | token :: rest => token.bracedEdges ++ bracedEdgesOf rest

end

theorem edgesOf_append (tokens more : List Token) :
    edgesOf (tokens ++ more) = edgesOf tokens ++ edgesOf more := by
  induction tokens with
  | nil => rfl
  | cons token rest ih => simp [edgesOf, ih]

theorem bracedEdgesOf_append (tokens more : List Token) :
    bracedEdgesOf (tokens ++ more) = bracedEdgesOf tokens ++ bracedEdgesOf more := by
  induction tokens with
  | nil => rfl
  | cons token rest ih => simp [bracedEdgesOf, ih]

mutual

theorem bracedEdges_subset : (token : Token) → token.bracedEdges ⊆ token.edges
  | group .brace inside start closing stop => fun _ found => found
  | group .paren inside start closing stop | group .bracket inside start closing stop =>
    fun pos found => by
      have := bracedEdgesOf_subset inside found
      simp [edges, this]
  | word .. | punct .. | lifetime .. | literal .. => by simp [bracedEdges]

theorem bracedEdgesOf_subset : (tokens : List Token) → bracedEdgesOf tokens ⊆ edgesOf tokens
  | [] => fun _ found => found
  | token :: rest => by
    simp only [bracedEdgesOf, edgesOf]
    exact List.append_subset.mpr
      ⟨fun _ found => List.mem_append_left _ (bracedEdges_subset token found),
        fun _ found => List.mem_append_right _ (bracedEdgesOf_subset rest found)⟩

end

theorem stop_mem_edges (token : Token) : token.stop ∈ token.edges := by
  cases token <;> simp [stop, edges]

theorem edges_subset_edgesOf {token : Token} {tokens : List Token} (member : token ∈ tokens) :
    token.edges ⊆ edgesOf tokens := by
  intro pos found
  obtain ⟨front, back, rfl⟩ := List.append_of_mem member
  simp [edgesOf_append, edgesOf, found]

end Token

/-- Drops the mark of a raw identifier. -/
def unraw (name : String) : String :=
  match name.toList with
  | 'r' :: '#' :: rest => String.ofList rest
  | _ => name

end StructInventory
