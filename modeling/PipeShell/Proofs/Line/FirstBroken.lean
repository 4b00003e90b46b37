import Mathlib.Data.Option.Basic
import PipeShell.Proofs.Line.Grammar

/-!
# The rule that is reported

A line that is refused may break several rules.  `rules` lists all of them, each said by what stands
where in the line, in the order in which they come first; the error of a refused line is that of the
first rule it breaks, and a line that breaks none is accepted (`parse_reports_first_broken_rule`).

The order of the checks is that of the list but for one place.  What pipes and redirections do to
each other is looked for pipe by pipe, so two rules are checked at once; which of them is reported is
decided by the leftmost redirection (`finds_clashing?`).
-/

set_option autoImplicit false

namespace PipeShell.Line

open Text

/-! ## Rules in order -/

/-- What a line must not be, and the error that says so. -/
structure Rule where
  error : LineError
  broken : Prop

/-- The first of the rules that is broken has this error. -/
inductive FirstBroken : List Rule → LineError → Prop where
  | here {rule : Rule} {rules : List Rule} (broken : rule.broken) :
      FirstBroken (rule :: rules) rule.error
  | later {rule : Rule} {rules : List Rule} {error : LineError} (kept : ¬ rule.broken)
      (behind : FirstBroken rules error) : FirstBroken (rule :: rules) error

section FirstBroken

variable {rule : Rule} {rules others : List Rule} {error : LineError}

@[simp]
theorem not_firstBroken_nil : ¬ FirstBroken [] error := nofun

theorem firstBroken_cons_iff : FirstBroken (rule :: rules) error ↔
    rule.broken ∧ rule.error = error ∨ ¬ rule.broken ∧ FirstBroken rules error := by
  constructor
  · intro first
    cases first with
    | here broken => exact .inl ⟨broken, rfl⟩
    | later kept behind => exact .inr ⟨kept, behind⟩
  · rintro (⟨broken, rfl⟩ | ⟨kept, behind⟩)
    · exact .here broken
    · exact .later kept behind

theorem exists_firstBroken_iff :
    (∃ error, FirstBroken rules error) ↔ ∃ rule ∈ rules, rule.broken := by
  induction rules with
  | nil => simp
  | cons rule rules ih =>
      by_cases broken : rule.broken
      · simp [firstBroken_cons_iff, broken]
      · simp [firstBroken_cons_iff, broken, ih]

theorem firstBroken_append_iff : FirstBroken (rules ++ others) error ↔
    FirstBroken rules error ∨ (∀ rule ∈ rules, ¬ rule.broken) ∧ FirstBroken others error := by
  induction rules with
  | nil => simp
  | cons rule rules ih =>
      rw [List.cons_append, firstBroken_cons_iff, firstBroken_cons_iff, ih]
      by_cases broken : rule.broken
      · simp [broken]
      · simp [broken]

theorem FirstBroken.error_mem (first : FirstBroken rules error) :
    error ∈ rules.map Rule.error := by
  induction first with
  | here broken => exact List.mem_cons_self
  | later kept behind ih => exact List.mem_cons_of_mem _ ih

end FirstBroken

/-- A check finds the first broken one of some rules, and nothing when all are kept. -/
def Finds (found : Option LineError) (rules : List Rule) : Prop :=
  ∀ error, found = some error ↔ FirstBroken rules error

section Finds

variable {found behind : Option LineError} {error : LineError} {broken : Prop}
  {rules others : List Rule}

theorem Finds.eq_none_iff (finds : Finds found rules) :
    found = none ↔ ∀ rule ∈ rules, ¬ rule.broken := by
  have some_iff : (∃ error, found = some error) ↔ ∃ rule ∈ rules, rule.broken := by
    simp only [finds _, exists_firstBroken_iff]
  rw [Option.eq_none_iff_forall_ne_some, ← not_exists, some_iff]
  simp

theorem finds_single [Decidable broken] :
    Finds (if broken then some error else none) [⟨error, broken⟩] := by
  intro other
  simp [firstBroken_cons_iff]

/-- What is checked later may rely on the rules that were checked before. -/
theorem Finds.orElse (finds : Finds found rules)
    (later : (∀ rule ∈ rules, ¬ rule.broken) → Finds behind others) :
    Finds (found <|> behind) (rules ++ others) := by
  intro error
  rw [Option.orElse_eq_some, firstBroken_append_iff, finds error, finds.eq_none_iff]
  by_cases kept : ∀ rule ∈ rules, ¬ rule.broken
  · rw [later kept error]
  · simp only [kept, false_and]

theorem Finds.cons {rule : Rule} (finds : Finds found [rule])
    (later : ¬ rule.broken → Finds behind others) : Finds (found <|> behind) (rule :: others) :=
  finds.orElse fun kept => later (kept rule List.mem_cons_self)

end Finds

/-! ## The rules of lines -/

/-- The leftmost redirection of a text, with what stands before and after it. -/
structure Redirected (text before : List Char) (token : Char) (after : List Char) : Prop where
  split : text = before ++ token :: after
  redirects : token = inputToken ∨ token = outputToken
  unread : inputToken ∉ before
  unwritten : outputToken ∉ before

def Dangles (token : Char) (text : List Char) : Prop :=
  text.head? = some token ∨ text.getLast? = some token

def Blank (text : List Char) : Prop := ∀ c ∈ text, isWhiteSpace c = true

/-- The line by its tokens: no piece of it holds another. -/
structure Cuts (line : List Char) (l : Layout) : Prop where
  text : l.text = line
  staged : l.stages ≠ []
  plain : ∀ piece ∈ l.pieces, Plain piece

/-- What a line must not be without its spacing. -/
def bareRules (text : List Char) : List Rule :=
  [ ⟨.empty, text = []⟩,
    ⟨.duplicateRedirect inputToken, text.count inputToken > 1⟩,
    ⟨.duplicateRedirect outputToken, text.count outputToken > 1⟩,
    ⟨.adjacentPipes, [pipeToken, pipeToken] <:+: text⟩,
    ⟨.redirectOrder, [outputToken, inputToken].Sublist text⟩,
    ⟨.pipeTouchesRedirect, ∃ before token after, Redirected text before token after ∧
      before.getLast? = some pipeToken⟩,
    ⟨.pipeAfterRedirect, ∃ before token after, Redirected text before token after ∧
      pipeToken ∈ after⟩,
    ⟨.danglingToken outputToken, Dangles outputToken text⟩,
    ⟨.danglingToken inputToken, Dangles inputToken (withoutToken outputToken text)⟩,
    ⟨.danglingToken pipeToken,
      Dangles pipeToken (withoutToken inputToken (withoutToken outputToken text))⟩ ]

/-- What its pieces must not be. -/
def pieceRules (line : List Char) : List Rule :=
  [ ⟨.missingTarget outputToken, ∃ l, Cuts line l ∧ ∃ target ∈ l.output, Blank target⟩,
    ⟨.missingTarget inputToken, ∃ l, Cuts line l ∧ ∃ target ∈ l.input, Blank target⟩,
    ⟨.emptyStage, ∃ l, Cuts line l ∧ ∃ stage ∈ l.stages, Blank stage⟩ ]

def rules (line : List Char) : List Rule := bareRules (bare line) ++ pieceRules line

/-! ## Pipes next to each other -/

theorem isChain_apart_iff {text : List Char} :
    text.IsChain Apart ↔ ¬ [pipeToken, pipeToken] <:+: text := by
  rw [List.isChain_iff_forall_rel_of_append_cons_cons]
  constructor
  · rintro apart ⟨before, after, rfl⟩
    have both := @apart pipeToken pipeToken before after (by simp)
    exact both ⟨rfl, rfl⟩
  · rintro absent a b before after rfl ⟨rfl, rfl⟩
    exact absent ⟨before, after, by simp⟩

theorem finds_adjacentPipes? {text : List Char} :
    Finds (adjacentPipes? text) [⟨.adjacentPipes, [pipeToken, pipeToken] <:+: text⟩] := by
  have decided : [pipeToken, pipeToken] <:+: text ↔
      (text.zip text.tail).any (· = (pipeToken, pipeToken)) = true := by
    rw [← Bool.not_eq_false, any_adjacent_eq_false_iff, isChain_apart_iff, not_not]
  rw [decided]
  exact finds_single

/-! ## The order of redirections -/

theorem idxOf?_lt_of_mem {token : Char} {head : List Char} (present : token ∈ head)
    (tail : List Char) : ∃ place < head.length, (head ++ tail).idxOf? token = some place := by
  obtain ⟨before, after, rfl, absent⟩ := List.eq_append_cons_of_mem present
  refine ⟨before.length, by simp, ?_⟩
  rw [List.append_assoc, List.cons_append]
  exact idxOf?_append_cons absent _

theorem misordered?_eq_some_iff {text : List Char} {error : LineError} :
    misordered? text = some error ↔ .redirectOrder = error ∧
      ∃ input output, text.idxOf? inputToken = some input ∧
        text.idxOf? outputToken = some output ∧ output < input := by
  unfold misordered?
  cases text.idxOf? inputToken <;> cases text.idxOf? outputToken <;> simp [and_comm]

/-- Where there is one input at most, it is the first. -/
theorem sublist_output_input_iff {text : List Char} (once : text.count inputToken ≤ 1) :
    [outputToken, inputToken].Sublist text ↔
      ∃ input output, text.idxOf? inputToken = some input ∧
        text.idxOf? outputToken = some output ∧ output < input := by
  constructor
  · intro both
    obtain ⟨head, tail, rfl, written, read⟩ := List.cons_sublist_iff.mp both
    rw [List.singleton_sublist] at read
    have unread : inputToken ∉ head := by
      intro present
      have first := List.count_pos_iff.mpr present
      have second := List.count_pos_iff.mpr read
      rw [List.count_append] at once
      omega
    have somewhere : inputToken ∈ head ++ tail := List.mem_append_right _ read
    obtain ⟨input, first⟩ := Option.isSome_iff_exists.mp (List.isSome_idxOf?.mpr somewhere)
    obtain ⟨output, early, found⟩ := idxOf?_lt_of_mem written tail
    have late := length_le_of_getElem? unread (getElem?_of_idxOf? first)
    exact ⟨input, output, first, found, by omega⟩
  · rintro ⟨input, output, read, written, before⟩
    have split : text.take input ++ text.drop input = text := List.take_append_drop ..
    rw [← split, List.cons_sublist_iff]
    refine ⟨_, _, rfl, ?_, ?_⟩
    · have placed : (text.take input)[output]? = some outputToken := by
        rw [List.getElem?_take_of_lt before]
        exact getElem?_of_idxOf? written
      exact List.mem_of_getElem? placed
    · have placed : (text.drop input)[0]? = some inputToken := by
        rw [List.getElem?_drop]
        exact getElem?_of_idxOf? read
      exact List.singleton_sublist.mpr (List.mem_of_getElem? placed)

theorem finds_misordered? {text : List Char} (once : text.count inputToken ≤ 1) :
    Finds (misordered? text) [⟨.redirectOrder, [outputToken, inputToken].Sublist text⟩] := by
  intro error
  rw [misordered?_eq_some_iff, firstBroken_cons_iff, sublist_output_input_iff once]
  simp [and_comm]

/-! ## Pipes and redirections -/

section Clashing

variable {text before after : List Char} {token : Char} {error : LineError}

theorem exists_redirected (redirected : inputToken ∈ text ∨ outputToken ∈ text) :
    ∃ before token after, Redirected text before token after := by
  induction text with
  | nil => simp at redirected
  | cons c rest ih =>
      by_cases redirects : c = inputToken ∨ c = outputToken
      · exact ⟨[], c, rest, rfl, redirects, List.not_mem_nil, List.not_mem_nil⟩
      · rw [not_or] at redirects
        obtain ⟨other, alsoOther⟩ := redirects
        rw [List.mem_cons, List.mem_cons] at redirected
        obtain ⟨before, token, after, first⟩ := ih (by
          rcases redirected with (same | inside) | (same | inside)
          · exact absurd same.symm other
          · exact .inl inside
          · exact absurd same.symm alsoOther
          · exact .inr inside)
        refine ⟨c :: before, token, after, ?_, first.redirects, ?_, ?_⟩
        · rw [first.split, List.cons_append]
        · simp [first.unread, Ne.symm other]
        · simp [first.unwritten, Ne.symm alsoOther]

/-- Nothing before a leftmost redirection redirects, so there is one only. -/
theorem Redirected.unique (first : Redirected text before token after)
    {before' after' : List Char} {token' : Char} (also : Redirected text before' token' after') :
    before = before' ∧ after = after' := by
  have shorter : ∀ {before before' : List Char} {token token' : Char} {after after' : List Char},
      Redirected text before token after → Redirected text before' token' after' →
        before.length ≤ before'.length := by
    intro before before' token token' after after' first also
    have here : (before ++ token :: after)[before'.length]? = some token' := by
      rw [← first.split, also.split]
      simp
    rcases also.redirects with rfl | rfl
    · exact length_le_of_getElem? first.unread here
    · exact length_le_of_getElem? first.unwritten here
  have length := Nat.le_antisymm (shorter first also) (shorter also first)
  have places := first.split.symm.trans also.split
  obtain ⟨same, behind⟩ := List.append_inj places length
  exact ⟨same, (List.cons.inj behind).2⟩

theorem Redirected.token_ne_pipe (first : Redirected text before token after) :
    token ≠ pipeToken := by
  rcases first.redirects with rfl | rfl <;> decide

/-- The redirections that a pipe is compared with, the leftmost first. -/
theorem Redirected.places (first : Redirected text before token after)
    (ordered : ∀ input output, text.idxOf? inputToken = some input →
      text.idxOf? outputToken = some output → input ≤ output) :
    ∃ others, (text.idxOf? inputToken).toList ++ (text.idxOf? outputToken).toList =
        before.length :: others ∧ ∀ place ∈ others, before.length < place := by
  have apart : inputToken ≠ outputToken := by decide
  obtain ⟨rfl, redirects, unread, unwritten⟩ := first
  rcases redirects with rfl | rfl
  · refine ⟨_, by rw [idxOf?_append_cons unread]; rfl, ?_⟩
    intro place found
    have placed := getElem?_of_idxOf? (Option.mem_toList.mp found)
    have behind := length_le_of_getElem? unwritten placed
    apply Nat.lt_of_le_of_ne behind
    rintro rfl
    simp [apart] at placed
  · have behind := input_notMem_tail_of_ordered unread unwritten ordered
    have unnamed : (before ++ outputToken :: after).idxOf? inputToken = none := by
      rw [List.idxOf?_eq_none_iff, List.mem_append, List.mem_cons]
      simp [unread, apart, behind]
    refine ⟨[], ?_, by simp⟩
    rw [unnamed, idxOf?_append_cons unwritten]
    rfl

theorem findSome?_clash?_of_lt {pipe redirect : Nat} {others : List Nat}
    (behind : ∀ place ∈ others, redirect < place) (before : pipe < redirect) :
    (redirect :: others).findSome? (clash? pipe) =
      if redirect = pipe + 1 then some .pipeTouchesRedirect else none := by
  have free : others.findSome? (clash? pipe) = none := by
    rw [List.findSome?_eq_none_iff]
    intro place member
    have later := behind place member
    exact (clash?_eq_none_iff (by omega)).mpr (by omega)
  have early : ¬ pipe > redirect := by omega
  have here : clash? pipe redirect =
      if redirect = pipe + 1 then some .pipeTouchesRedirect else none := if_neg early
  by_cases touching : redirect = pipe + 1
  · rw [List.findSome?_cons, here, if_pos touching]
  · rw [List.findSome?_cons, here, if_neg touching, free]

theorem findSome?_clash?_of_gt {pipe redirect : Nat} {others : List Nat}
    (after : redirect < pipe) :
    (redirect :: others).findSome? (clash? pipe) = some .pipeAfterRedirect := by
  simp [clash?, after]

theorem positions_append (mark : Char) (head tail : List Char) :
    positions mark (head ++ tail) =
      positions mark head ++ (positions mark tail).map (head.length + ·) := by
  have shifted : tail.zipIdx head.length =
      tail.zipIdx.map fun place => (place.1, head.length + place.2) :=
    List.zipIdx_eq_map_add ..
  rw [positions, List.zipIdx_append, List.filter_append, List.map_append, Nat.zero_add, shifted,
    List.filter_map, List.map_map, positions, positions, List.map_map]
  rfl

theorem findSome?_eq_some_iff_of_ite {α β : Type} {f : α → Option β} {P : α → Prop}
    [DecidablePred P] {only found : β} {values : List α}
    (each : ∀ x ∈ values, f x = if P x then some only else none) :
    values.findSome? f = some found ↔ (∃ x ∈ values, P x) ∧ only = found := by
  induction values with
  | nil => simp
  | cons x values ih =>
      have rest := ih fun other member => each other (List.mem_cons_of_mem _ member)
      rw [List.findSome?_cons, each x List.mem_cons_self]
      by_cases holds : P x
      · simp [holds]
      · simp [holds, rest]

theorem exists_mem_positions_iff {mark : Char} :
    (∃ place, place ∈ positions mark text) ↔ mark ∈ text := by
  simp only [mem_positions]
  exact List.mem_iff_getElem?.symm

theorem getLast?_eq_some_iff_positions {mark : Char} :
    before.getLast? = some mark ↔ ∃ pipe ∈ positions mark before, before.length = pipe + 1 := by
  simp only [mem_positions]
  constructor
  · intro last
    obtain ⟨start, rfl⟩ := List.getLast?_eq_some_iff.mp last
    exact ⟨start.length, by simp, by simp⟩
  · rintro ⟨pipe, found, length⟩
    rw [List.getLast?_eq_getElem?, length]
    exact found

/-- The pipes before the leftmost redirection come first; of these only one that touches it is at
fault, and of those behind it each is. -/
theorem clashing?_eq_some_iff (first : Redirected text before token after)
    (ordered : ∀ input output, text.idxOf? inputToken = some input →
      text.idxOf? outputToken = some output → input ≤ output) :
    clashing? text = some error ↔
      before.getLast? = some pipeToken ∧ .pipeTouchesRedirect = error ∨
        before.getLast? ≠ some pipeToken ∧ pipeToken ∈ after ∧ .pipeAfterRedirect = error := by
  obtain ⟨others, places, behind⟩ := first.places ordered
  have early : ∀ pipe ∈ positions pipeToken before,
      (before.length :: others).findSome? (clash? pipe) =
        if before.length = pipe + 1 then some .pipeTouchesRedirect else none := by
    intro pipe member
    obtain ⟨lt, -⟩ := List.getElem?_eq_some_iff.mp (mem_positions.mp member)
    exact findSome?_clash?_of_lt behind lt
  have late : ∀ pipe ∈ (positions pipeToken (token :: after)).map (before.length + ·),
      (before.length :: others).findSome? (clash? pipe) = some .pipeAfterRedirect := by
    intro pipe member
    obtain ⟨place, found, rfl⟩ := List.mem_map.mp member
    apply findSome?_clash?_of_gt
    cases place with
    -- the redirection itself is no pipe
    | zero =>
        have same : some token = some pipeToken := mem_positions.mp found
        exact absurd (Option.some.inj same) first.token_ne_pipe
    | succ place => omega
  have touching : ∀ error, (positions pipeToken before).findSome?
      (fun pipe => (before.length :: others).findSome? (clash? pipe)) = some error ↔
        before.getLast? = some pipeToken ∧ .pipeTouchesRedirect = error := by
    intro error
    rw [findSome?_eq_some_iff_of_ite early, ← getLast?_eq_some_iff_positions]
  have following : ((positions pipeToken (token :: after)).map (before.length + ·)).findSome?
      (fun pipe => (before.length :: others).findSome? (clash? pipe)) = some error ↔
        pipeToken ∈ after ∧ .pipeAfterRedirect = error := by
    rw [findSome?_eq_some_iff_of_ite (P := fun _ => True) (by simpa using late)]
    have behindToken : (∃ pipe, pipe ∈ positions pipeToken (token :: after)) ↔
        pipeToken ∈ after := by
      rw [exists_mem_positions_iff, List.mem_cons, or_iff_right first.token_ne_pipe.symm]
    simp [← behindToken]
  have untouched : (positions pipeToken before).findSome?
      (fun pipe => (before.length :: others).findSome? (clash? pipe)) = none ↔
        before.getLast? ≠ some pipeToken := by
    rw [Option.eq_none_iff_forall_ne_some]
    simp [touching]
  rw [clashing?, places, first.split, positions_append, List.findSome?_append,
    Option.or_eq_some_iff, touching, untouched, following]

theorem clashing?_of_notMem (unread : inputToken ∉ text) (unwritten : outputToken ∉ text) :
    clashing? text = none := by
  simp [clashing?, List.idxOf?_eq_none_iff.mpr unread, List.idxOf?_eq_none_iff.mpr unwritten]

theorem finds_clashing? (ordered : ∀ input output, text.idxOf? inputToken = some input →
      text.idxOf? outputToken = some output → input ≤ output) :
    Finds (clashing? text)
      [ ⟨.pipeTouchesRedirect, ∃ before token after, Redirected text before token after ∧
          before.getLast? = some pipeToken⟩,
        ⟨.pipeAfterRedirect, ∃ before token after, Redirected text before token after ∧
          pipeToken ∈ after⟩ ] := by
  intro error
  simp only [firstBroken_cons_iff, not_firstBroken_nil, and_false, or_false]
  by_cases redirected : inputToken ∈ text ∨ outputToken ∈ text
  · obtain ⟨before, token, after, first⟩ := exists_redirected redirected
    have touching : (∃ before token after, Redirected text before token after ∧
        before.getLast? = some pipeToken) ↔ before.getLast? = some pipeToken := by
      constructor
      · rintro ⟨_, _, _, also, last⟩
        rwa [(first.unique also).1]
      · intro last
        exact ⟨before, token, after, first, last⟩
    have following : (∃ before token after, Redirected text before token after ∧
        pipeToken ∈ after) ↔ pipeToken ∈ after := by
      constructor
      · rintro ⟨_, _, _, also, present⟩
        rwa [(first.unique also).2]
      · intro present
        exact ⟨before, token, after, first, present⟩
    rw [clashing?_eq_some_iff first ordered, touching, following]
  -- without a redirection no pipe is compared with anything
  · have none : ∀ before token after, ¬ Redirected text before token after := by
      rintro before token after ⟨rfl, rfl | rfl, -, -⟩
      · exact redirected (.inl (by simp))
      · exact redirected (.inr (by simp))
    rw [not_or] at redirected
    rw [clashing?_of_notMem redirected.1 redirected.2]
    simp [none]

end Clashing

/-! ## Tokens at the ends -/

theorem finds_dangling? {token : Char} {text : List Char} :
    Finds (dangling? token text) [⟨.danglingToken token, Dangles token text⟩] := by
  intro error
  simp [dangling?, Dangles, firstBroken_cons_iff]

theorem withoutToken_ne_nil_of_not_dangles {token : Char} {text : List Char} (written : text ≠ [])
    (kept : ¬ Dangles token text) : withoutToken token text ≠ [] := by
  have left : withoutToken token (text ++ []) ≠ [] :=
    withoutToken_ne_nil written fun first => kept (.inl first)
  rwa [List.append_nil] at left

/-- A text of nothing but tokens begins with one of them, so it is never found to lack a command. -/
theorem finds_dangles? {text : List Char} (written : text ≠ []) :
    Finds (dangles? text)
      [ ⟨.danglingToken outputToken, Dangles outputToken text⟩,
        ⟨.danglingToken inputToken, Dangles inputToken (withoutToken outputToken text)⟩,
        ⟨.danglingToken pipeToken,
          Dangles pipeToken (withoutToken inputToken (withoutToken outputToken text))⟩ ] := by
  refine Finds.cons finds_dangling? fun first => ?_
  refine Finds.cons finds_dangling? fun second => ?_
  refine Finds.cons finds_dangling? fun third => ?_
  have unwritten := withoutToken_ne_nil_of_not_dangles written first
  have unread := withoutToken_ne_nil_of_not_dangles unwritten second
  have commanded := withoutToken_ne_nil_of_not_dangles unread third
  intro error
  simp [commanded]

/-! ## All rules on the bare line -/

theorem finds_duplicate? {token : Char} {text : List Char} :
    Finds (duplicate? token text) [⟨.duplicateRedirect token, text.count token > 1⟩] :=
  finds_single

theorem finds_violation? (text : List Char) : Finds (violation? text) (bareRules text) := by
  -- one check after the other, each with what the earlier ones have ruled out
  refine Finds.cons finds_single fun written => ?_
  refine Finds.cons finds_duplicate? fun inputOnce => ?_
  refine Finds.cons finds_duplicate? fun outputOnce => ?_
  refine Finds.cons finds_adjacentPipes? fun apart => ?_
  have once := Nat.le_of_not_lt inputOnce
  refine Finds.cons (finds_misordered? once) fun ordered => ?_
  have places : ∀ input output, text.idxOf? inputToken = some input →
      text.idxOf? outputToken = some output → input ≤ output := by
    intro input output read wrote
    by_contra late
    exact ordered ((sublist_output_input_iff once).mpr
      ⟨input, output, read, wrote, Nat.lt_of_not_le late⟩)
  have clashing := finds_clashing? places
  exact clashing.orElse fun _ => finds_dangles? written

/-! ## Blank pieces -/

theorem not_blank_iff {text : List Char} : ¬ Blank text ↔ Written text := by
  simp [Blank, Written]

theorem piece_eq_error_iff {blank error : LineError} {text : List Char} :
    piece blank text = .error error ↔ Blank text ∧ blank = error := by
  rw [Blank, ← trimChars_eq_nil_iff, piece]
  split
  · next empty => simp [empty]
  · next filled =>
      have visible : trimChars text ≠ [] := filled
      simp [visible]

theorem cutTarget_eq_error_iff {token : Char} {text : List Char} {error : LineError} :
    cutTarget token text = .error error ↔
      (∃ target ∈ (cutAt token text).2, Blank target) ∧ .missingTarget token = error := by
  unfold cutTarget cutAt
  cases cutOnce token text with
  | none => simp
  | some parts =>
      obtain ⟨head, tail⟩ := parts
      simp [bind_eq_error_iff, piece_eq_error_iff, pure, Except.pure]

theorem cut_eq_error_iff {text : List Char} {error : LineError} :
    cut text = .error error ↔ FirstBroken
      [ ⟨.missingTarget outputToken, ∃ target ∈ (Layout.read text).output, Blank target⟩,
        ⟨.missingTarget inputToken, ∃ target ∈ (Layout.read text).input, Blank target⟩,
        ⟨.emptyStage, ∃ stage ∈ (Layout.read text).stages, Blank stage⟩ ] error := by
  have stagesFail : ∀ stages : List (List Char), stages.mapM (piece .emptyStage) = .error error ↔
      (∃ stage ∈ stages, Blank stage) ∧ .emptyStage = error :=
    fun stages => mapM_eq_error_iff_of_single fun _ _ => piece_eq_error_iff
  have targetFine : ∀ {target : Option (List Char)},
      (∀ piece ∈ target, Written piece) ↔ ¬ ∃ piece ∈ target, Blank piece := by
    intro target
    simp only [← not_blank_iff, not_exists, not_and]
  rw [cut]
  simp only [firstBroken_cons_iff, not_firstBroken_nil, and_false, or_false, Layout.read_eq,
    bind_eq_error_iff, Prod.exists, cutTarget_eq_error_iff, cutTarget_eq_ok_iff, targetFine,
    stagesFail]
  simp only [pure, Except.pure, reduceCtorEq, and_false, exists_false, or_false, and_assoc,
    exists_and_left, exists_eq_left']

/-! ## Lines -/

/-- A line that obeys the rules is taken apart in one way. -/
theorem cuts_iff {line : List Char} (rules : Obeys (bare line)) {l : Layout} :
    Cuts line l ↔ l = Layout.read line := by
  constructor
  · rintro ⟨rfl, staged, plain⟩
    exact (Layout.read_text staged plain).symm
  · rintro rfl
    exact ⟨Layout.text_read line, Layout.stages_read_ne_nil line, plain_of_obeys_bare rules⟩

theorem parse_eq_error_iff {line : String} {error : LineError} :
    parse line = .error error ↔ violation? (bare line.toList) = some error ∨
      violation? (bare line.toList) = none ∧ cut line.toList = .error error := by
  rw [parse]
  cases violation? (bare line.toList) <;> simp

theorem parse_eq_error_iff_firstBroken {line : String} {error : LineError} :
    parse line = .error error ↔ FirstBroken (rules line.toList) error := by
  have finds := finds_violation? (bare line.toList)
  rw [parse_eq_error_iff, rules, firstBroken_append_iff, finds error, finds.eq_none_iff]
  by_cases kept : ∀ rule ∈ bareRules (bare line.toList), ¬ rule.broken
  -- only a line that keeps these rules is cut, and then in one way
  · have obeys := violation?_eq_none_iff.mp (finds.eq_none_iff.mpr kept)
    simp only [pieceRules, cuts_iff obeys, exists_eq_left, cut_eq_error_iff]
  · simp only [kept, false_and]

/-- A line is refused with the error of the first rule that it breaks, and it is accepted just when
it breaks none. -/
theorem parse_reports_first_broken_rule (line : String) :
    (∀ error, parse line = .error error ↔ FirstBroken (rules line.toList) error) ∧
      ((∃ segments, parse line = .ok segments) ↔
        ∀ rule ∈ rules line.toList, ¬ rule.broken) := by
  refine ⟨fun error => parse_eq_error_iff_firstBroken, ?_⟩
  have refused : (∃ error, parse line = .error error) ↔
      ∃ rule ∈ rules line.toList, rule.broken := by
    simp only [parse_eq_error_iff_firstBroken, exists_firstBroken_iff]
  cases outcome : parse line with
  | error cause =>
      obtain ⟨rule, member, broken⟩ := refused.mp ⟨cause, outcome⟩
      simp only [reduceCtorEq, exists_false, false_iff, not_forall, not_not]
      exact ⟨rule, member, broken⟩
  | ok segments =>
      rw [outcome] at refused
      simpa using refused

example : parse "a |> b | c" = .error .pipeTouchesRedirect := by decide

end PipeShell.Line
