import Mathlib.Logic.Relation
import PipeShell.Proofs.Alias.Expansion

/-!
# Loops over aliases end

Expanding a name and looking for a cycle are loops.  Both are taken here move by move, on tables of
any kind: with cycles, with names that are no words and with values that are blank.  Each round of a
loop marks a name of the table that it has not come to before (`Marked`), so there are no more
rounds than names, and the loop ends with what `expansion` and `reaches` give (`alias_loops_end`).

Expansion looks up the first of its words in every round.  A blank value may leave no word at all,
and then the loop is over before the next look-up.  A blank value may also bring a name back that
stood behind the first word; this is why `Revisits` follows whole lists of words.
-/

set_option autoImplicit false

namespace PipeShell.AliasTable

open Relation (ReflTransGen TransGen)

variable {t : AliasTable} {name word value key : String} {seen words rest : List String}

/-! ## Loops -/

/-- A loop comes from one state to another, where `next` is its next state as long as there is
one. -/
def Runs {σ : Type} (next : σ → Option σ) : σ → σ → Prop :=
  ReflTransGen fun state state' => next state = some state'

/-- What each move keeps, a whole run keeps. -/
theorem Runs.keeps {σ : Type} {next : σ → Option σ} {P : σ → Prop} {first last : σ}
    (runs : Runs next first last)
    (step : ∀ state state', next state = some state' → P state → P state') (begun : P first) :
    P last := by
  induction runs with
  | refl => exact begun
  | tail _ move ih => exact step _ _ move ih

/-- Names of the table, each once. -/
structure Marked (t : AliasTable) (seen : List String) : Prop where
  once : seen.Nodup
  bound : ∀ name ∈ seen, name ∈ t.bindings.keys

theorem marked_nil (t : AliasTable) : Marked t [] := ⟨List.nodup_nil, List.forall_mem_nil _⟩

theorem Marked.cons (marked : Marked t seen) (bound : t.get? word = some value)
    (new : word ∉ seen) : Marked t (word :: seen) where
  once := List.nodup_cons.mpr ⟨new, marked.once⟩
  bound := List.forall_mem_cons.mpr ⟨Dictionary.mem_keys_of_get? bound, marked.bound⟩

/-- There are no more of them than the table has. -/
theorem Marked.length_le (marked : Marked t seen) : seen.length ≤ t.bindings.keys.length :=
  marked.once.length_le_of_subset marked.bound

/-! ## The loop of expansion -/

/-- Where the loop stands: before a look-up, behind a replacement, or at its end with the name that
it was stopped at. -/
inductive Point where
  | look
  | replaced
  | ended (loopAt : Option String)
  deriving DecidableEq, Repr

/-- A state of the loop.  The names that were replaced are `seen`, the latest first. -/
structure Unfolding where
  point : Point
  seen : List String
  words : List String
  deriving DecidableEq, Repr

namespace Unfolding

def start (name : String) : Unfolding := { point := .look, seen := [], words := [name] }

/-- One move.  A look-up needs a first word; without one the loop cannot go on. -/
def next (t : AliasTable) (state : Unfolding) : Option Unfolding :=
  match state.point, state.words with
  | .look, [] => none
  | .look, word :: rest =>
    match t.get? word with
    | none => some { state with point := .ended none }
    | some value =>
      if word ∈ state.seen then some { state with point := .ended (some word) }
      else some ⟨.replaced, word :: state.seen, Text.words value ++ rest⟩
  | .replaced, [] => some { state with point := .ended none }
  | .replaced, _ :: _ => some { state with point := .look }
  | .ended _, _ => none

/-- A move replaces the first word by the words of its value, or keeps names and words as they
are. -/
inductive Move (t : AliasTable) (state : Unfolding) : Unfolding → Prop
  | replace {word value : String} {rest : List String} (shape : state.words = word :: rest)
      (bound : t.get? word = some value) (new : word ∉ state.seen) :
      Move t state ⟨.replaced, word :: state.seen, Text.words value ++ rest⟩
  | keep {point : Point} (indexed : point = .look → state.words ≠ [])
      (stopped : ∀ key, point = .ended (some key) →
        key ∈ state.seen ∧ ∃ rest, state.words = key :: rest) :
      Move t state { state with point }

theorem move_of_next {state state' : Unfolding} (moves : state.next t = some state') :
    Move t state state' := by
  obtain ⟨point, seen, words⟩ := state
  cases point with
  | look =>
      cases words with
      | nil => cases moves
      | cons word rest =>
          simp only [next] at moves
          split at moves
          · cases moves
            exact .keep nofun nofun
          · next value bound =>
              split at moves
              · next again =>
                  cases moves
                  refine .keep nofun fun key same => ?_
                  cases same
                  exact ⟨again, rest, rfl⟩
              · next new =>
                  cases moves
                  exact .replace rfl bound new
  | replaced =>
      cases words with
      | nil =>
          cases moves
          exact .keep nofun nofun
      | cons word rest =>
          cases moves
          exact .keep (fun _ => List.cons_ne_nil _ _) nofun
  | ended loopAt => cases moves

end Unfolding

/-! ## What expansion comes to -/

/-- From words on, of which there is a first, the loop comes to its end with what following them
gives. -/
theorem runs_follow (t : AliasTable) (seen words : List String) (written : words ≠ []) :
    ∃ seen', Runs (Unfolding.next t) ⟨.look, seen, words⟩
      ⟨.ended (t.follow seen words).loopAt, seen', (t.follow seen words).words⟩ := by
  fun_induction follow t seen words with
  | case1 => exact absurd rfl written
  | case2 seen word rest unbound =>
      refine ⟨seen, .single ?_⟩
      simp only [Unfolding.next, unbound]
  | case3 seen word rest value bound again =>
      refine ⟨seen, .single ?_⟩
      simp only [Unfolding.next, bound, if_pos again]
  | case4 seen word rest value bound new ih =>
      have replaced : Unfolding.next t ⟨.look, seen, word :: rest⟩ =
          some ⟨.replaced, word :: seen, Text.words value ++ rest⟩ := by
        simp only [Unfolding.next, bound, if_neg new]
      -- without a word left the loop ends, and there is no further look-up
      cases left : Text.words value ++ rest with
      | nil =>
          rw [left] at replaced
          refine ⟨word :: seen, .head replaced (.single ?_)⟩
          rw [follow]
          rfl
      | cons first others =>
          rw [left] at replaced ih
          obtain ⟨seen', onward⟩ := ih (List.cons_ne_nil _ _)
          have back : Unfolding.next t ⟨.replaced, word :: seen, first :: others⟩ =
              some ⟨.look, word :: seen, first :: others⟩ := rfl
          exact ⟨seen', .head replaced (.head back onward)⟩

/-! ## Words that come back -/

/-- The first word, which is an alias, gives way to the words of its value. -/
inductive Replaces (t : AliasTable) : List String → List String → Prop
  | first {word value : String} (bound : t.get? word = some value) (rest : List String) :
      Replaces t (word :: rest) (Text.words value ++ rest)

/-- With no regard to what was seen before, replacing first words leads from the name to words that
begin with the key, and from these to words that begin with it again. -/
def Revisits (t : AliasTable) (name key : String) : Prop :=
  ∃ rest rest', ReflTransGen t.Replaces [name] (key :: rest) ∧
    TransGen t.Replaces (key :: rest) (key :: rest')

/-- If the loop is stopped behind a replacement, it was stopped before it. -/
theorem loopAt_follow_of_behind (bound : t.get? word = some value)
    (behind : (t.follow (word :: seen) (Text.words value ++ rest)).loopAt ≠ none) :
    (t.follow seen (word :: rest)).loopAt ≠ none := by
  by_cases old : word ∈ seen
  · rw [follow_of_seen bound old]
    exact Option.some_ne_none word
  · rwa [follow_of_new bound old]

/-- A word that was seen stops the loop when it comes first again, if nothing else does. -/
theorem loopAt_follow_of_seen (again : key ∈ seen) (bound : t.get? key = some value)
    (leads : ReflTransGen t.Replaces words (key :: rest)) :
    (t.follow seen words).loopAt ≠ none := by
  induction leads using ReflTransGen.head_induction_on generalizing seen with
  | refl =>
      rw [follow_of_seen bound again]
      exact Option.some_ne_none key
  | head step _ ih =>
      cases step with
      | first bound' => exact loopAt_follow_of_behind bound' (ih (List.mem_cons_of_mem _ again))

theorem loopAt_follow_of_revisits {rest' : List String}
    (leads : ReflTransGen t.Replaces words (key :: rest))
    (around : TransGen t.Replaces (key :: rest) (key :: rest')) :
    (t.follow seen words).loopAt ≠ none := by
  induction leads using ReflTransGen.head_induction_on generalizing seen with
  | refl =>
      -- the key is marked by its replacement, and then it comes first again
      obtain ⟨next, step, back⟩ := TransGen.head'_iff.mp around
      cases step with
      | first bound =>
          exact loopAt_follow_of_behind bound (loopAt_follow_of_seen List.mem_cons_self bound back)
  | head step _ ih =>
      cases step with
      | first bound' => exact loopAt_follow_of_behind bound' ih

namespace Unfolding

/-- What holds wherever the loop stands that began at the name. -/
structure Begun (t : AliasTable) (name : String) (state : Unfolding) : Prop where
  marked : Marked t state.seen
  indexed : state.point = .look → state.words ≠ []
  leads : ReflTransGen t.Replaces [name] state.words
  passed : ∀ old ∈ state.seen, ∃ rest, ReflTransGen t.Replaces [name] (old :: rest) ∧
    TransGen t.Replaces (old :: rest) state.words
  stopped : ∀ key, state.point = .ended (some key) →
    key ∈ state.seen ∧ ∃ rest, state.words = key :: rest

theorem begun_start (t : AliasTable) (name : String) : Begun t name (start name) where
  marked := marked_nil t
  indexed _ := List.cons_ne_nil _ _
  leads := .refl
  passed _ member := by cases member
  stopped := nofun

theorem begun_next {state state' : Unfolding} (moves : state.next t = some state')
    (begun : Begun t name state) : Begun t name state' := by
  cases move_of_next moves with
  | @replace word value rest shape bound new =>
      have step : t.Replaces state.words (Text.words value ++ rest) := shape ▸ .first bound rest
      refine ⟨begun.marked.cons bound new, nofun, begun.leads.tail step, ?_, nofun⟩
      intro old member
      rcases List.mem_cons.mp member with rfl | member
      -- the name that was replaced stood first up to now
      · exact ⟨rest, shape ▸ begun.leads, shape ▸ .single step⟩
      · obtain ⟨behind, before, onward⟩ := begun.passed old member
        exact ⟨behind, before, onward.tail step⟩
  | keep indexed stopped =>
      exact ⟨begun.marked, indexed, begun.leads, begun.passed, stopped⟩

theorem begun_of_runs {state : Unfolding} (runs : Runs (next t) (start name) state) :
    Begun t name state :=
  runs.keeps (fun _ _ => begun_next) (begun_start t name)

theorem Begun.revisits {state : Unfolding} (begun : Begun t name state)
    (ended : state.point = .ended (some key)) : t.Revisits name key := by
  obtain ⟨again, behind, shape⟩ := begun.stopped key ended
  obtain ⟨rest, before, onward⟩ := begun.passed key again
  exact ⟨rest, behind, before, shape ▸ onward⟩

end Unfolding

/-! ## The search for a cycle -/

/-- Where the search stands: before a word, with the names that were passed, or at its end with the
answer. -/
inductive Search where
  | look (passed : List String) (word : String)
  | ended (found : Bool)
  deriving DecidableEq, Repr

namespace Search

/-- One move of the search for `target`. -/
def next (t : AliasTable) (target : String) : Search → Option Search
  | .look passed word =>
    if word = target then some (.ended true)
    else if word ∈ passed then some (.ended false)
    else match t.get? word with
      | none => some (.ended false)
      | some value => some (.look (word :: passed) (Text.firstWord value))
  | .ended _ => none

def passed : Search → List String
  | .look passed _ => passed
  | .ended _ => []

theorem marked_next {target : String} {state state' : Search}
    (move : state.next t target = some state') (marked : Marked t state.passed) :
    Marked t state'.passed := by
  cases state with
  | ended found => cases move
  | look passed word =>
      simp only [next] at move
      split at move
      · cases move
        exact marked_nil t
      · split at move
        · cases move
          exact marked_nil t
        · next new =>
            split at move
            · cases move
              exact marked_nil t
            · next value bound =>
                cases move
                exact marked.cons bound new

end Search

theorem runs_reaches (t : AliasTable) (target : String) (passed : List String) (word : String) :
    Runs (Search.next t target) (.look passed word) (.ended (t.reaches target passed word)) := by
  fun_induction reaches t target passed word with
  | case1 passed => exact .single (by simp [Search.next])
  | case2 passed word other again => exact .single (by simp [Search.next, other, again])
  | case3 passed word other new unbound =>
      exact .single (by simp [Search.next, other, new, unbound])
  | case4 passed word other new value bound ih =>
      have onward : Search.next t target (.look passed word) =
          some (.look (word :: passed) (Text.firstWord value)) := by
        simp [Search.next, other, new, bound]
      exact .head onward ih

theorem add_eq_aliasCycle_iff : t.add name value = .error (.aliasCycle name) ↔
    isValidName name = true ∧ Text.isBlank value = false ∧
      t.reaches name [] (Text.firstWord value) = true := by
  cases valid : isValidName name with
  | false => simp [add, valid]
  | true =>
      cases written : Text.isBlank value with
      | true => simp [add, valid, written]
      | false => simp [add_of_valid valid written]

/-! ## Both loops -/

/-- Expanding a name is a loop that comes to its end. -/
structure ExpansionEnds (t : AliasTable) (name : String) : Prop where
  /-- The end, with the text that the name is expanded to and the warning that is given.  There were
  no more replacements than the table has names. -/
  ends : ∃ seen words loopAt,
    Runs (Unfolding.next t) (Unfolding.start name) ⟨.ended loopAt, seen, words⟩ ∧
      seen.length ≤ t.bindings.keys.length ∧ t.expand name = Text.unwords words ∧
      (t.expansion name).warnings = loopAt.toList.map Warning.aliasLoop
  /-- No name is replaced twice, and none that the table does not have. -/
  marked : ∀ state, Runs (Unfolding.next t) (Unfolding.start name) state → Marked t state.seen
  /-- Wherever the first word is looked up, there is one. -/
  indexed : ∀ state, Runs (Unfolding.next t) (Unfolding.start name) state →
    state.point = .look → state.words ≠ []
  /-- A warning is about a name that comes back. -/
  warned : ∀ key, Warning.aliasLoop key ∈ (t.expansion name).warnings → t.Revisits name key
  /-- Without a warning no name comes back. -/
  quiet : (t.expansion name).warnings = [] → ∀ key, ¬ t.Revisits name key

/-- Looking for a cycle, before a name is bound to a value, is a loop that comes to its end. -/
structure SearchEnds (t : AliasTable) (name value : String) : Prop where
  /-- The end, with the answer on which the definition is refused. -/
  ends : ∃ found,
    Runs (Search.next t name) (.look [] (Text.firstWord value)) (.ended found) ∧
      (t.add name value = .error (.aliasCycle name) ↔
        isValidName name = true ∧ Text.isBlank value = false ∧ found = true)
  /-- No name is passed twice, and none that the table does not have. -/
  marked : ∀ state, Runs (Search.next t name) (.look [] (Text.firstWord value)) state →
    Marked t state.passed

theorem mem_warnings_iff {expansion : Expansion} :
    Warning.aliasLoop key ∈ expansion.warnings ↔ expansion.loopAt = some key := by
  simp [Expansion.warnings]

/-- On every table, whatever it binds, and for every name and value, both loops over aliases come to
their end. -/
theorem alias_loops_end (t : AliasTable) (name value : String) :
    ExpansionEnds t name ∧ SearchEnds t name value := by
  obtain ⟨seen, expands⟩ := runs_follow t [] [name] (List.cons_ne_nil _ _)
  have few : seen.length ≤ t.bindings.keys.length :=
    (Unfolding.begun_of_runs expands).marked.length_le
  constructor
  · refine
      { ends := ⟨seen, _, _, expands, few, rfl, rfl⟩
        marked := fun state runs => (Unfolding.begun_of_runs runs).marked
        indexed := fun state runs => (Unfolding.begun_of_runs runs).indexed
        warned := ?_
        quiet := ?_ }
    · intro key warned
      exact (Unfolding.begun_of_runs expands).revisits (congrArg _ (mem_warnings_iff.mp warned))
    · rintro quiet key ⟨rest, rest', leads, around⟩
      have stopped : (t.expansion name).loopAt ≠ none := loopAt_follow_of_revisits leads around
      obtain ⟨word, looped⟩ := Option.ne_none_iff_exists'.mp stopped
      have warned : Warning.aliasLoop word ∈ (t.expansion name).warnings :=
        mem_warnings_iff.mpr looped
      rw [quiet] at warned
      cases warned
  · exact
      { ends := ⟨_, runs_reaches t name [] _, add_eq_aliasCycle_iff⟩
        marked := fun state runs =>
          runs.keeps (fun _ _ => Search.marked_next) (marked_nil t) }

/-- The name `a` comes back behind itself, although following first words leads nowhere twice. -/
example : (⟨.ofList [("a", " "), ("b", "a a")]⟩ : AliasTable).expansion "b" =
    { words := ["a"], loopAt := some "a" } := by cbv

end PipeShell.AliasTable
