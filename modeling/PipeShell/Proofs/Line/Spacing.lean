import Mathlib.Logic.Relation
import PipeShell.Proofs.Line.Grammar
import PipeShell.Proofs.Text.Words

/-!
# Spacing around tokens

Spacing may be put in at the ends of a line and next to every token.  The line is read as before, or
refused for the same cause (`parse_ignores_spacing_around_tokens`).

The rules do not see spacing at all.  The cut does, but it trims its pieces, and two lines that are
`Alike` have the same tokens with the same trimmed pieces between them; they are cut in the same
places.  This needs pieces without tokens, and a line that obeys the rules has no others.
-/

set_option autoImplicit false

namespace PipeShell.Line

open Text
open Relation (ReflTransGen)

/-! ## Widening a line -/

/-- A character that takes lines apart. -/
def IsToken (c : Char) : Prop := c = pipeToken ∨ c = inputToken ∨ c = outputToken

/-- Between these texts is an end of the line, or a token stands next to the place. -/
def Margin (before after : List Char) : Prop :=
  before = [] ∨ after = [] ∨ (∃ token, before.getLast? = some token ∧ IsToken token) ∨
    ∃ token, after.head? = some token ∧ IsToken token

/-- The second line has spacing at one margin that the first does not have. -/
inductive Widens : String → String → Prop
  | insert (before gap after : List Char) (spacing : ∀ c ∈ gap, isSpacing c = true)
      (margin : Margin before after) :
      Widens (String.ofList (before ++ after)) (String.ofList (before ++ gap ++ after))

/-! ## Texts by their tokens -/

theorem plain_iff {text : List Char} : Plain text ↔ ∀ c ∈ text, ¬ IsToken c := by
  constructor
  · rintro ⟨pipe, input, output⟩ c member (rfl | rfl | rfl)
    · exact pipe member
    · exact input member
    · exact output member
  · intro free
    exact ⟨fun member => free _ member (.inl rfl), fun member => free _ member (.inr (.inl rfl)),
      fun member => free _ member (.inr (.inr rfl))⟩

theorem plain_of_spacing {gap : List Char} (spacing : ∀ c ∈ gap, isSpacing c = true) :
    Plain gap := by
  rw [plain_iff]
  rintro c member (rfl | rfl | rfl) <;>
    · have spaced := spacing _ member
      revert spaced
      decide

theorem blank_of_spacing {gap : List Char} (spacing : ∀ c ∈ gap, isSpacing c = true) :
    Text.Blank gap :=
  fun c member => isWhiteSpace_of_isSpacing (spacing c member)

/-- A text is a piece without tokens, or such a piece with a token and another text behind it. -/
theorem token_induction {motive : List Char → Prop} (piece : ∀ p, Plain p → motive p)
    (token : ∀ p c rest, Plain p → IsToken c → motive rest → motive (p ++ c :: rest))
    (text : List Char) : motive text := by
  have empty : Plain [] := plain_iff.mpr (List.forall_mem_nil _)
  -- what was read without coming to a token is kept in front
  have ahead : ∀ text p, Plain p → motive (p ++ text) := by
    intro text
    induction text with
    | nil =>
        intro p plain
        rw [List.append_nil]
        exact piece p plain
    | cons c text ih =>
        intro p plain
        by_cases isToken : IsToken c
        · exact token p c text plain isToken (ih [] empty)
        · have longer : Plain (p ++ [c]) :=
            plain.append (plain_iff.mpr (List.forall_mem_singleton.mpr isToken))
          have read := ih (p ++ [c]) longer
          rwa [List.append_assoc, List.singleton_append] at read
  exact ahead text [] empty

/-! ## Texts that are alike -/

/-- Pieces without tokens that are the same when they are trimmed. -/
structure SamePiece (p q : List Char) : Prop where
  left : Plain p
  right : Plain q
  trimmed : trimChars p = trimChars q

/-- The texts have the same tokens, and the pieces between these are the same when they are
trimmed. -/
inductive Alike : List Char → List Char → Prop
  | piece {p q : List Char} (same : SamePiece p q) : Alike p q
  | token {p q rest rest' : List Char} {c : Char} (same : SamePiece p q) (isToken : IsToken c)
      (behind : Alike rest rest') : Alike (p ++ c :: rest) (q ++ c :: rest')

section Margins

variable {text text' gap : List Char}

theorem SamePiece.refl {p : List Char} (plain : Plain p) : SamePiece p p := ⟨plain, plain, rfl⟩

theorem Alike.refl (text : List Char) : Alike text text := by
  induction text using token_induction with
  | piece p plain => exact .piece (.refl plain)
  | token p c rest plain isToken ih => exact .token (.refl plain) isToken ih

theorem SamePiece.spacing_append {p q : List Char} (same : SamePiece p q)
    (spacing : ∀ c ∈ gap, isSpacing c = true) : SamePiece p (gap ++ q) :=
  ⟨same.left, (plain_of_spacing spacing).append same.right,
    same.trimmed.trans (trimChars_blank_append (blank_of_spacing spacing) q).symm⟩

theorem SamePiece.append_spacing {p q : List Char} (same : SamePiece p q)
    (spacing : ∀ c ∈ gap, isSpacing c = true) : SamePiece p (q ++ gap) :=
  ⟨same.left, same.right.append (plain_of_spacing spacing),
    same.trimmed.trans (trimChars_append_blank (blank_of_spacing spacing) q).symm⟩

theorem Alike.spacing_append (alike : Alike text text')
    (spacing : ∀ c ∈ gap, isSpacing c = true) : Alike text (gap ++ text') := by
  cases alike with
  | piece same => exact .piece (same.spacing_append spacing)
  | token same isToken behind =>
      rw [← List.append_assoc]
      exact .token (same.spacing_append spacing) isToken behind

theorem Alike.append_spacing (alike : Alike text text')
    (spacing : ∀ c ∈ gap, isSpacing c = true) : Alike text (text' ++ gap) := by
  induction alike with
  | piece same => exact .piece (same.append_spacing spacing)
  | token same isToken behind ih =>
      rw [List.append_assoc, List.cons_append]
      exact .token same isToken ih

theorem Alike.append_token {c : Char} {rest rest' : List Char} (alike : Alike text text')
    (isToken : IsToken c) (behind : Alike rest rest') :
    Alike (text ++ c :: rest) (text' ++ c :: rest') := by
  induction alike with
  | piece same => exact .token same isToken behind
  | token same first _ ih =>
      rw [List.append_assoc, List.append_assoc, List.cons_append, List.cons_append]
      exact .token same first ih

/-- Spacing at a margin lies at an end of a piece. -/
theorem alike_of_margin {before after : List Char} (spacing : ∀ c ∈ gap, isSpacing c = true)
    (margin : Margin before after) : Alike (before ++ after) (before ++ gap ++ after) := by
  rw [List.append_assoc]
  rcases margin with rfl | rfl | ⟨c, last, isToken⟩ | ⟨c, first, isToken⟩
  · exact (Alike.refl after).spacing_append spacing
  · rw [List.append_nil, List.append_nil]
    exact (Alike.refl before).append_spacing spacing
  · obtain ⟨start, rfl⟩ := List.getLast?_eq_some_iff.mp last
    rw [List.append_assoc, List.append_assoc, List.singleton_append, List.singleton_append]
    exact (Alike.refl start).append_token isToken ((Alike.refl after).spacing_append spacing)
  · obtain ⟨rest, rfl⟩ := List.head?_eq_some_iff.mp first
    rw [← List.append_assoc]
    exact ((Alike.refl before).append_spacing spacing).append_token isToken (.refl rest)

end Margins

/-! ## Cutting texts that are alike -/

section Cutting

variable {text text' : List Char} {mark : Char}

theorem SamePiece.notMem (same : SamePiece text text') (isToken : IsToken mark) :
    mark ∉ text ∧ mark ∉ text' :=
  ⟨fun member => plain_iff.mp same.left mark member isToken,
    fun member => plain_iff.mp same.right mark member isToken⟩

/-- Without tokens in one of them, texts that are alike are the same when they are trimmed. -/
theorem Alike.trimmed (alike : Alike text text') (plain : Plain text) :
    trimChars text = trimChars text' := by
  cases alike with
  | piece same => exact same.trimmed
  | token same isToken behind =>
      exact absurd isToken (plain_iff.mp plain _ (by simp))

theorem cutAt_of_notMem (absent : mark ∉ text) : cutAt mark text = (text, none) := by
  have cut := cutAt_append_marked absent none
  rwa [marked, List.append_nil] at cut

/-- A text without the mark only lengthens what stands before it. -/
theorem cutAt_append {head : List Char} (absent : mark ∉ head) (rest : List Char) :
    cutAt mark (head ++ rest) = (head ++ (cutAt mark rest).1, (cutAt mark rest).2) := by
  have unmarked : mark ∉ head ++ (cutAt mark rest).1 := by
    rw [List.mem_append, not_or]
    exact ⟨absent, notMem_cutAt mark rest⟩
  conv_lhs => rw [← append_marked_cutAt mark rest, ← List.append_assoc]
  exact cutAt_append_marked unmarked _

/-- Texts that are alike are cut at the same token. -/
theorem Alike.cutAt (alike : Alike text text') (isToken : IsToken mark) :
    Alike (Line.cutAt mark text).1 (Line.cutAt mark text').1 ∧
      Option.Rel Alike (Line.cutAt mark text).2 (Line.cutAt mark text').2 := by
  induction alike with
  | piece same =>
      obtain ⟨left, right⟩ := same.notMem isToken
      rw [cutAt_of_notMem left, cutAt_of_notMem right]
      exact ⟨.piece same, .none⟩
  | @token p q rest rest' c same first behind ih =>
      obtain ⟨left, right⟩ := same.notMem isToken
      by_cases here : c = mark
      · subst here
        have cut : Line.cutAt c (p ++ c :: rest) = (p, some rest) :=
          cutAt_append_marked left (some rest)
        have cut' : Line.cutAt c (q ++ c :: rest') = (q, some rest') :=
          cutAt_append_marked right (some rest')
        rw [cut, cut']
        exact ⟨.piece same, .some behind⟩
      · have passed : ∀ {head : List Char}, mark ∉ head → mark ∉ head ++ [c] := by
          intro head absent
          rw [List.mem_append, not_or, List.mem_singleton]
          exact ⟨absent, Ne.symm here⟩
        rw [List.append_cons p, List.append_cons q, cutAt_append (passed left),
          cutAt_append (passed right), ← List.append_cons, ← List.append_cons]
        exact ⟨.token same first ih.1, ih.2⟩

/-- What is left of texts that are alike, when no redirection is, falls into the same stages. -/
theorem Alike.stages (alike : Alike text text') (unread : inputToken ∉ text)
    (unwritten : outputToken ∉ text) :
    (text.splitOn pipeToken).map trimChars = (text'.splitOn pipeToken).map trimChars := by
  have whole : ∀ {p : List Char}, pipeToken ∉ p → p.splitOn pipeToken = [p] := by
    intro p absent
    exact List.splitOnP_eq_singleton fun c member => by
      simpa using fun same : c = pipeToken => absent (same ▸ member)
  have split : ∀ p rest : List Char, (p ++ pipeToken :: rest).splitOn pipeToken =
      p.splitOn pipeToken ++ rest.splitOn pipeToken := by
    intro p rest
    exact List.splitOnP_append_cons p rest (by simp)
  induction alike with
  | piece same =>
      obtain ⟨left, right⟩ := same.notMem (.inl rfl)
      rw [whole left, whole right, List.map_singleton, List.map_singleton, same.trimmed]
  | @token p q rest rest' c same first behind ih =>
      obtain ⟨left, right⟩ := same.notMem (.inl rfl)
      rw [List.mem_append, not_or, List.mem_cons, not_or] at unread unwritten
      -- the token is no redirection, so it is a pipe
      obtain rfl : c = pipeToken := by
        rcases first with rfl | rfl | rfl
        · rfl
        · exact absurd rfl unread.2.1
        · exact absurd rfl unwritten.2.1
      rw [split, split, whole left, whole right, List.map_append, List.map_append,
        ih unread.2.2 unwritten.2.2, List.map_singleton, List.map_singleton, same.trimmed]

theorem map_trimChars_of_alike {piece piece' : Option (List Char)}
    (alike : Option.Rel Alike piece piece') (plain : ∀ p ∈ piece, Plain p) :
    piece.map trimChars = piece'.map trimChars := by
  cases alike with
  | none => rfl
  | some same => exact congrArg some (same.trimmed (plain _ rfl))

/-- Texts that are alike have the same trimmed layout, if that of the first has no tokens in it. -/
theorem Alike.read (alike : Alike text text')
    (plain : ∀ piece ∈ (Layout.read text).pieces, Plain piece) :
    (Layout.read text).map trimChars = (Layout.read text').map trimChars := by
  have reads : IsToken inputToken := .inr (.inl rfl)
  have writes : IsToken outputToken := .inr (.inr rfl)
  obtain ⟨before, output⟩ := alike.cutAt writes
  obtain ⟨body, input⟩ := before.cutAt reads
  have unread := notMem_cutAt inputToken (Line.cutAt outputToken text).1
  have unwritten : outputToken ∉
      (Line.cutAt inputToken (Line.cutAt outputToken text).1).1 := by
    intro member
    apply notMem_cutAt outputToken text
    rw [← append_marked_cutAt inputToken (Line.cutAt outputToken text).1]
    exact List.mem_append_left _ member
  have stages := body.stages unread unwritten
  have inputs := map_trimChars_of_alike input fun p given => plain p (Layout.input_mem_pieces given)
  have outputs :=
    map_trimChars_of_alike output fun p given => plain p (Layout.output_mem_pieces given)
  rw [Layout.read_eq, Layout.read_eq, Layout.map, Layout.map, stages, inputs, outputs]

end Cutting

/-! ## Lines -/

theorem piece_trimChars (blank : LineError) (text : List Char) :
    piece blank (trimChars text) = piece blank text := by
  rw [piece, trimChars_idem, piece]

/-- Trims the pieces of a layout and refuses blank ones. -/
def Layout.settle (l : Layout) : Except LineError Segments := do
  let output ← l.output.mapM (piece (.missingTarget outputToken))
  let input ← l.input.mapM (piece (.missingTarget inputToken))
  let stages ← l.stages.mapM (piece .emptyStage)
  return { stages, input, output }

theorem cutTarget_eq (token : Char) (text : List Char) :
    cutTarget token text = (cutAt token text).2.mapM (piece (.missingTarget token)) >>=
      fun target => pure ((cutAt token text).1, target) := by
  unfold cutTarget cutAt
  cases cutOnce token text with
  | none => rfl
  | some parts =>
      obtain ⟨head, tail⟩ := parts
      simp only [Option.mapM_some, bind_assoc, map_eq_pure_bind, pure_bind]

/-- The cut reads a line and settles what it has read. -/
theorem cut_eq_settle (text : List Char) : cut text = (Layout.read text).settle := by
  rw [cut, Layout.settle, Layout.read_eq]
  simp only [cutTarget_eq, bind_assoc, pure_bind]

theorem Layout.settle_map_trimChars (l : Layout) : (l.map trimChars).settle = l.settle := by
  have target : ∀ (cause : LineError) (tail : Option (List Char)),
      (tail.map trimChars).mapM (piece cause) = tail.mapM (piece cause) := by
    intro cause tail
    cases tail with
    | none => rfl
    | some text => rw [Option.map_some, Option.mapM_some, Option.mapM_some, piece_trimChars]
  have each : piece .emptyStage ∘ trimChars = piece .emptyStage :=
    funext fun text => piece_trimChars _ text
  rw [settle, settle, Layout.map, target, target, List.mapM_map, each]

theorem bare_of_spacing {gap : List Char} (spacing : ∀ c ∈ gap, isSpacing c = true) :
    bare gap = [] :=
  List.filter_eq_nil_iff.mpr fun c member => by simp [spacing c member]

theorem parse_of_widens {line line' : String} (widens : Widens line line') :
    parse line' = parse line := by
  obtain ⟨before, gap, after, spacing, margin⟩ := widens
  have same : bare (before ++ gap ++ after) = bare (before ++ after) := by
    rw [bare_append, bare_append, bare_of_spacing spacing, List.append_nil, ← bare_append]
  rw [parse, parse, String.toList_ofList, String.toList_ofList, same]
  cases found : violation? (bare (before ++ after)) with
  | some cause => rfl
  | none =>
      have plain := plain_of_obeys_bare (violation?_eq_none_iff.mp found)
      have layouts := (alike_of_margin spacing margin).read plain
      show cut _ = cut _
      rw [cut_eq_settle, cut_eq_settle, ← Layout.settle_map_trimChars, ← layouts,
        Layout.settle_map_trimChars]

/-- However much spacing is put in at the ends of a line and next to its tokens, in one place or in
several, what the line is read as does not change, and neither does the error of a line that is
refused. -/
theorem parse_ignores_spacing_around_tokens (line line' : String)
    (widened : ReflTransGen Widens line line') : parse line' = parse line := by
  induction widened with
  | refl => rfl
  | tail _ last ih => rw [parse_of_widens last, ih]

/-- A line that is accepted, with spacing behind its pipe and in front of its `>`, and one that is
refused for an input that is not named, with a line break before its `>`. -/
theorem parse_ignores_spacing_in_short_lines :
    ReflTransGen Widens "a|b>c" "a|\t b \r>c" ∧ parse "a|\t b \r>c" = parse "a|b>c" ∧
    ReflTransGen Widens "a<>b" "a<\n>b" ∧ parse "a<\n>b" = parse "a<>b" ∧
    parse "a<>b" = .error (.missingTarget inputToken) := by
  have behindPipe : Widens "a|b>c" "a|\t b>c" :=
    .insert ['a', '|'] ['\t', ' '] ['b', '>', 'c'] (by simp [isSpacing])
      (.inr (.inr (.inl ⟨'|', rfl, .inl rfl⟩)))
  have beforeOutput : Widens "a|\t b>c" "a|\t b \r>c" :=
    .insert ['a', '|', '\t', ' ', 'b'] [' ', '\r'] ['>', 'c'] (by simp [isSpacing])
      (.inr (.inr (.inr ⟨'>', rfl, .inr (.inr rfl)⟩)))
  have unnamed : Widens "a<>b" "a<\n>b" :=
    .insert ['a', '<'] ['\n'] ['>', 'b'] (by simp [isSpacing])
      (.inr (.inr (.inr ⟨'>', rfl, .inr (.inr rfl)⟩)))
  have both : ReflTransGen Widens "a|b>c" "a|\t b \r>c" := .tail (.single behindPipe) beforeOutput
  exact ⟨both, parse_ignores_spacing_around_tokens _ _ both, .single unnamed,
    parse_ignores_spacing_around_tokens _ _ (.single unnamed), by decide⟩

end PipeShell.Line
