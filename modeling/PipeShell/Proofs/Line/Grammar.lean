import PipeShell.Proofs.Line.Verdict
import PipeShell.Proofs.Outcome

/-!
# The grammar of lines

A `Sentence` is a line as the grammar has it: one or more stages with a pipe between neighbours,
then possibly an input and possibly an output, where no stage and no file name holds a token or is
blank.  `parse` accepts exactly the lines of sentences, no two sentences have the same line, and
what it gives are the pieces of the sentence, trimmed.

The two looks that `parse` takes at a line meet in its layout (`Layout.read`).  The rules are those
of the layout without its spacing, the cut is the layout with its pieces trimmed.
-/

set_option autoImplicit false

namespace PipeShell.Line

open Text

/-! ## Sentences -/

/-- Something other than white space stands in the text. -/
def Written (text : List Char) : Prop := ∃ c ∈ text, isWhiteSpace c = false

structure Sentence extends Layout where
  staged : stages ≠ []
  plain : ∀ piece ∈ toLayout.pieces, Plain piece
  written : ∀ piece ∈ toLayout.pieces, Written piece

def trimmed (text : List Char) : String := String.ofList (trimChars text)

def Layout.segments (l : Layout) : Segments :=
  { stages := l.stages.map trimmed, input := l.input.map trimmed, output := l.output.map trimmed }

namespace Sentence

def line (s : Sentence) : String := String.ofList s.text

def segments (s : Sentence) : Segments := s.toLayout.segments

end Sentence

/-! ## The cut -/

theorem trimChars_ne_nil_iff {text : List Char} : trimChars text ≠ [] ↔ Written text := by
  rw [ne_eq, trimChars_eq_nil_iff, Written]
  push Not
  simp only [ne_eq, Bool.not_eq_true]

theorem piece_eq_ok_iff {blank : LineError} {text : List Char} {value : String} :
    piece blank text = .ok value ↔ Written text ∧ trimmed text = value := by
  rw [← trimChars_ne_nil_iff]
  unfold piece trimmed
  split
  · next empty => simp [empty]
  · next filled =>
      have visible : trimChars text ≠ [] := filled
      simp [visible]

theorem cutTarget_eq_ok_iff {token : Char} {text rest : List Char} {target : Option String} :
    cutTarget token text = .ok (rest, target) ↔
      (∀ piece ∈ (cutAt token text).2, Written piece) ∧
        (cutAt token text).1 = rest ∧ (cutAt token text).2.map trimmed = target := by
  unfold cutTarget cutAt
  cases cutOnce token text with
  | none => simp
  | some parts =>
      obtain ⟨head, tail⟩ := parts
      simp only [bind_eq_ok_iff, piece_eq_ok_iff, Option.map_some, Option.mem_def,
        Option.some.injEq, forall_eq']
      constructor
      · rintro ⟨value, ⟨written, rfl⟩, same⟩
        cases same
        exact ⟨written, rfl, rfl⟩
      · rintro ⟨written, rfl, rfl⟩
        exact ⟨_, ⟨written, rfl⟩, rfl⟩

theorem forall_mem_pieces {P : List Char → Prop} {l : Layout} :
    (∀ piece ∈ l.pieces, P piece) ↔
      (∀ piece ∈ l.output, P piece) ∧ (∀ piece ∈ l.input, P piece) ∧ ∀ piece ∈ l.stages, P piece := by
  simp only [Layout.pieces, List.mem_append, Option.mem_toList]
  constructor
  · intro every
    exact ⟨fun p given => every p (Or.inr given), fun p given => every p (Or.inl (Or.inr given)),
      fun p given => every p (Or.inl (Or.inl given))⟩
  · rintro ⟨outputs, inputs, stages⟩ p ((given | given) | given)
    · exact stages p given
    · exact inputs p given
    · exact outputs p given

/-- The cut trims the pieces of the layout, and refuses it if one of them is blank. -/
theorem cut_eq_ok_iff {text : List Char} {s : Segments} :
    cut text = .ok s ↔
      (∀ piece ∈ (Layout.read text).pieces, Written piece) ∧ (Layout.read text).segments = s := by
  have stagesOk : ∀ (stages : List (List Char)) (values : List String),
      stages.mapM (piece .emptyStage) = .ok values ↔
        (∀ stage ∈ stages, Written stage) ∧ stages.map trimmed = values :=
    fun stages values => mapM_eq_ok_iff_map fun _ _ => piece_eq_ok_iff
  rw [forall_mem_pieces, Layout.read_eq, cut]
  simp only [bind_eq_ok_iff, Prod.exists, cutTarget_eq_ok_iff, stagesOk, Layout.segments]
  constructor
  · rintro ⟨_, _, ⟨outputs, rfl, rfl⟩, _, _, ⟨inputs, rfl, rfl⟩, _, ⟨stages, rfl⟩, same⟩
    cases same
    exact ⟨⟨outputs, inputs, stages⟩, rfl⟩
  · rintro ⟨⟨outputs, inputs, stages⟩, rfl⟩
    exact ⟨_, _, ⟨outputs, rfl, rfl⟩, _, _, ⟨inputs, rfl, rfl⟩, _, ⟨stages, rfl⟩, rfl⟩

/-! ## The line without its spacing -/

theorem isWhiteSpace_of_isSpacing {c : Char} (spacing : isSpacing c = true) :
    isWhiteSpace c = true := by
  simp only [isSpacing, Bool.or_eq_true, decide_eq_true_eq] at spacing
  rcases spacing with ((rfl | rfl) | rfl) | rfl <;> decide

theorem mem_bare {c : Char} {text : List Char} : c ∈ bare text ↔ c ∈ text ∧ isSpacing c = false := by
  simp [bare]

theorem bare_ne_nil {text : List Char} (written : Written text) : bare text ≠ [] := by
  obtain ⟨c, present, visible⟩ := written
  have unspaced : isSpacing c = false := by
    by_contra spacing
    have spaced := isWhiteSpace_of_isSpacing (Bool.not_eq_false _ ▸ spacing)
    rw [visible] at spaced
    cases spaced
  exact List.ne_nil_of_mem (mem_bare.mpr ⟨present, unspaced⟩)

theorem bare_append (head tail : List Char) : bare (head ++ tail) = bare head ++ bare tail :=
  List.filter_append ..

theorem bare_cons_of_not_spacing {c : Char} (visible : isSpacing c = false) (text : List Char) :
    bare (c :: text) = c :: bare text :=
  List.filter_cons_of_pos (by simpa using visible)

theorem bare_marked {token : Char} (visible : isSpacing token = false)
    (tail : Option (List Char)) : bare (marked token tail) = marked token (tail.map bare) := by
  cases tail with
  | none => rfl
  | some piece => exact bare_cons_of_not_spacing visible piece

theorem bare_intercalate (stages : List (List Char)) :
    bare ([pipeToken].intercalate stages) = [pipeToken].intercalate (stages.map bare) := by
  induction stages with
  | nil => rfl
  | cons first others ih =>
      cases others with
      | nil => simp
      | cons second others =>
          rw [List.map_cons] at ih
          rw [List.intercalate_cons_cons, bare_append, bare_append, ih, List.map_cons, List.map_cons,
            List.intercalate_cons_cons]
          rfl

/-- Tokens are no spacing, so dropping the spacing does not touch the layout. -/
theorem bare_text (l : Layout) : bare l.text = (l.map bare).text := by
  rw [Layout.text, bare_append, bare_append, bare_intercalate, bare_marked (by decide),
    bare_marked (by decide)]
  rfl

theorem plain_bare_iff {text : List Char} : Plain (bare text) ↔ Plain text := by
  have same : ∀ {token : Char}, isSpacing token = false → (token ∉ bare text ↔ token ∉ text) := by
    intro token visible
    rw [mem_bare, visible]
    simp
  constructor
  · rintro ⟨pipe, input, output⟩
    exact ⟨(same (by decide)).mp pipe, (same (by decide)).mp input, (same (by decide)).mp output⟩
  · rintro ⟨pipe, input, output⟩
    exact ⟨(same (by decide)).mpr pipe, (same (by decide)).mpr input, (same (by decide)).mpr output⟩

theorem forall_mem_pieces_bare {P : List Char → Prop} {l : Layout} :
    (∀ piece ∈ (l.map bare).pieces, P piece) ↔ ∀ piece ∈ l.pieces, P (bare piece) := by
  rw [Layout.pieces_map]
  simp only [List.mem_map, forall_exists_index, and_imp, forall_apply_eq_imp_iff₂]

/-- A line that obeys the rules without its spacing is cut into plain pieces. -/
theorem plain_of_obeys_bare {text : List Char} (rules : Obeys (bare text)) :
    ∀ piece ∈ (Layout.read text).pieces, Plain piece := by
  rw [← Layout.text_read text, bare_text] at rules
  have plain := Layout.plain_of_obeys (l := (Layout.read text).map bare) ?_ ?_ rules
  · intro piece member
    exact plain_bare_iff.mp (forall_mem_pieces_bare.mp plain piece member)
  · intro stage member
    obtain ⟨whole, inside, rfl⟩ := List.mem_map.mp member
    exact plain_bare_iff.mpr (Layout.plain_stages_read text whole inside)
  · intro piece given present
    obtain ⟨whole, inside, rfl⟩ := Option.map_eq_some_iff.mp given
    exact Layout.unwritten_input_read text whole inside (mem_bare.mp present).1

/-- A line whose pieces are written obeys the rules just when its pieces are plain. -/
theorem obeys_bare_iff {text : List Char}
    (written : ∀ piece ∈ (Layout.read text).pieces, Written piece) :
    Obeys (bare text) ↔ ∀ piece ∈ (Layout.read text).pieces, Plain piece := by
  constructor
  · exact plain_of_obeys_bare
  · intro plain
    rw [← Layout.text_read text, bare_text]
    apply Layout.obeys_text
    · exact fun empty => Layout.stages_read_ne_nil text (List.map_eq_nil_iff.mp empty)
    · exact forall_mem_pieces_bare.mpr fun piece member => plain_bare_iff.mpr (plain piece member)
    · exact forall_mem_pieces_bare.mpr fun piece member => bare_ne_nil (written piece member)

/-! ## Reading a line -/

theorem parse_eq_ok_iff {line : String} {s : Segments} :
    parse line = .ok s ↔ Obeys (bare line.toList) ∧ cut line.toList = .ok s := by
  rw [← violation?_eq_none_iff, parse]
  cases violation? (bare line.toList) <;> simp

/-- The layout of an accepted line is that of a sentence. -/
theorem parse_eq_ok_iff_layout {line : String} {s : Segments} :
    parse line = .ok s ↔
      (∀ piece ∈ (Layout.read line.toList).pieces, Plain piece ∧ Written piece) ∧
        (Layout.read line.toList).segments = s := by
  rw [parse_eq_ok_iff, cut_eq_ok_iff]
  constructor
  · rintro ⟨rules, written, same⟩
    have plain := (obeys_bare_iff written).mp rules
    exact ⟨fun piece member => ⟨plain piece member, written piece member⟩, same⟩
  · rintro ⟨pieces, same⟩
    have written := fun piece member => (pieces piece member).2
    exact ⟨(obeys_bare_iff written).mpr fun piece member => (pieces piece member).1, written, same⟩

theorem stages_ne_nil_of_parse {line : String} {s : Segments} (accepted : parse line = .ok s) :
    s.stages ≠ [] := by
  obtain ⟨-, rfl⟩ := parse_eq_ok_iff_layout.mp accepted
  exact fun empty => Layout.stages_read_ne_nil _ (List.map_eq_nil_iff.mp empty)

theorem plain_of_parse {line : String} {s : Segments} (accepted : parse line = .ok s) :
    ∀ text ∈ s.stages, Plain text.toList := by
  obtain ⟨pieces, rfl⟩ := parse_eq_ok_iff_layout.mp accepted
  intro text member
  obtain ⟨piece, inside, rfl⟩ := List.mem_map.mp member
  obtain ⟨plain, -⟩ := pieces piece (Layout.stage_mem_pieces inside)
  have among : (trimmed piece).toList ⊆ piece := by
    rw [trimmed, String.toList_ofList]
    exact trimChars_subset piece
  exact ⟨fun held => plain.pipe (among held), fun held => plain.input (among held),
    fun held => plain.output (among held)⟩

namespace Sentence

theorem ext_layout {s t : Sentence} (same : s.toLayout = t.toLayout) : s = t := by
  cases s
  cases t
  cases same
  rfl

theorem read_line (s : Sentence) : Layout.read s.line.toList = s.toLayout := by
  rw [line, String.toList_ofList, Layout.read_text s.staged s.plain]

theorem parse_line (s : Sentence) : parse s.line = .ok s.segments := by
  rw [parse_eq_ok_iff_layout, read_line]
  exact ⟨fun piece member => ⟨s.plain piece member, s.written piece member⟩, rfl⟩

theorem eq_of_line {s t : Sentence} (same : s.line = t.line) : s = t := by
  apply ext_layout
  rw [← read_line, ← read_line, same]

theorem exists_of_parse {line : String} {segments : Segments}
    (accepted : parse line = .ok segments) : ∃ s : Sentence, s.line = line := by
  obtain ⟨pieces, -⟩ := parse_eq_ok_iff_layout.mp accepted
  refine ⟨⟨Layout.read line.toList, Layout.stages_read_ne_nil _,
    fun piece member => (pieces piece member).1, fun piece member => (pieces piece member).2⟩, ?_⟩
  rw [Sentence.line, Layout.text_read, String.ofList_toList]

end Sentence

/-! ## Lines of stages only -/

/-- Texts without tokens, none of them blank, are the stages of the line with pipes between them. -/
theorem parse_intercalate {lines : List String} (staged : lines ≠ [])
    (pieces : ∀ line ∈ lines, Plain line.toList ∧ Written line.toList) :
    parse ("|".intercalate lines) =
      .ok { stages := lines.map trim, input := none, output := none } := by
  let sentence : Sentence :=
    { stages := lines.map String.toList
      input := none
      output := none
      staged := fun empty => staged (List.map_eq_nil_iff.mp empty)
      plain := by simpa [Layout.pieces] using fun line member => (pieces line member).1
      written := by simpa [Layout.pieces] using fun line member => (pieces line member).2 }
  have joined : sentence.line = "|".intercalate lines := by
    have pipe : "|".toList = [pipeToken] := rfl
    rw [Sentence.line, Layout.text, marked, marked, List.append_nil, List.append_nil, ← pipe,
      ← String.toList_intercalate, String.ofList_toList]
  have trims : trimmed ∘ String.toList = trim := rfl
  rw [← joined, sentence.parse_line, Sentence.segments, Layout.segments, List.map_map, trims]
  rfl

theorem parse_of_plain {line : String} (plain : Plain line.toList) (written : Written line.toList) :
    parse line = .ok { stages := [trim line], input := none, output := none } := by
  have alone := parse_intercalate (List.cons_ne_nil line [])
    (List.forall_mem_singleton.mpr ⟨plain, written⟩)
  rwa [String.intercalate_singleton] at alone

/-- No other line is a single stage. -/
theorem parse_eq_single_iff {line text : String} :
    parse line = .ok { stages := [text], input := none, output := none } ↔
      Plain line.toList ∧ Written line.toList ∧ trim line = text := by
  constructor
  · intro accepted
    obtain ⟨pieces, same⟩ := parse_eq_ok_iff_layout.mp accepted
    have restored := Layout.text_read line.toList
    rcases shape : Layout.read line.toList with ⟨stages, input, output⟩
    rw [shape] at pieces same restored
    obtain ⟨single, unread, unwritten⟩ := Segments.mk.inj same
    obtain ⟨whole, rfl, rfl⟩ := List.map_eq_singleton_iff.mp single
    obtain rfl := Option.map_eq_none_iff.mp unread
    obtain rfl := Option.map_eq_none_iff.mp unwritten
    have here : whole = line.toList := by simpa [Layout.text, marked] using restored
    obtain ⟨plain, written⟩ := pieces whole (by simp [Layout.pieces])
    subst here
    exact ⟨plain, written, rfl⟩
  · rintro ⟨plain, written, rfl⟩
    exact parse_of_plain plain written

/-- A line is accepted just when it is the line of a sentence.  The sentence is then the only one
with that line, and its trimmed pieces are what the line is read as. -/
theorem parse_accepts_exactly_sentences (line : String) :
    ((∃ segments, parse line = .ok segments) ↔ ∃ s : Sentence, s.line = line) ∧
      (∀ s : Sentence, s.line = line → parse line = .ok s.segments) ∧
      ∀ s t : Sentence, s.line = line → t.line = line → s = t := by
  refine ⟨⟨?_, ?_⟩, ?_, ?_⟩
  · rintro ⟨segments, accepted⟩
    exact Sentence.exists_of_parse accepted
  · rintro ⟨s, rfl⟩
    exact ⟨s.segments, s.parse_line⟩
  · rintro s rfl
    exact s.parse_line
  · intro s t first second
    exact Sentence.eq_of_line (first.trans second.symm)

example : parse "  sort -r |\tuniq < in.txt   > out.txt " =
    .ok { stages := ["sort -r", "uniq"], input := some "in.txt", output := some "out.txt" } := by
  decide

end PipeShell.Line
