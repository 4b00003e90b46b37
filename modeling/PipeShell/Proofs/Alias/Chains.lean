import Mathlib.Data.List.Chain
import Mathlib.Logic.Relation
import PipeShell.Alias
import PipeShell.Proofs.Text.Words

/-!
# Chains of first words

A name that is an alias leads to the first word of its value.  `AliasTable.reaches` walks along and
keeps the words that it has passed; on any table, also on one with a cycle, it finds exactly what
can be reached (`reaches_eq_true_iff`).

A definition puts one new step in the place of an old one.  So if there was no cycle before, there
is one afterwards just when the old table leads from the new value back to the name
(`hasCycle_define_iff`).
-/

set_option autoImplicit false

namespace PipeShell.AliasTable

open Relation (TransGen ReflTransGen)

variable {t full : AliasTable} {name value word next target : String}

/-! ## Steps -/

/-- A word that is an alias leads to the first word of its value. -/
def Leads (t : AliasTable) (word next : String) : Prop :=
  ∃ value, t.get? word = some value ∧ Text.firstWord value = next

/-- First words lead from some word back to it. -/
def HasCycle (t : AliasTable) : Prop := ∃ word, TransGen t.Leads word word

theorem leads_iff_of_get? (bound : t.get? word = some value) :
    t.Leads word next ↔ Text.firstWord value = next := by
  rw [Leads]
  constructor
  · rintro ⟨other, found, leads⟩
    obtain rfl := Option.some.inj (bound.symm.trans found)
    exact leads
  · intro leads
    exact ⟨value, bound, leads⟩

theorem not_leads_of_get? (unbound : t.get? word = none) : ¬ t.Leads word next := by
  rintro ⟨value, found, -⟩
  rw [unbound] at found
  cases found

/-- What can be reached from a word: the word itself, and what its value leads to. -/
theorem reflTransGen_iff_of_get? (bound : t.get? word = some value) :
    ReflTransGen t.Leads word target ↔
      word = target ∨ ReflTransGen t.Leads (Text.firstWord value) target := by
  rw [Relation.ReflTransGen.cases_head_iff]
  refine or_congr_right ⟨?_, fun onward => ⟨_, (leads_iff_of_get? bound).mpr rfl, onward⟩⟩
  rintro ⟨next, leads, onward⟩
  rwa [← (leads_iff_of_get? bound).mp leads] at onward

theorem reflTransGen_iff_of_unbound (unbound : t.get? word = none) :
    ReflTransGen t.Leads word target ↔ word = target := by
  rw [Relation.ReflTransGen.cases_head_iff, or_iff_left_iff_imp]
  rintro ⟨next, leads, -⟩
  exact absurd leads (not_leads_of_get? unbound)

/-! ## The walk -/

/-- The walk does not stop too early: the words it has passed lead nowhere but to each other and
to where it stands, so if they are not the target, none of them leads there. -/
theorem reaches_of_reflTransGen {seen : List String}
    (passed : ∀ old ∈ seen, old ≠ target ∧ ∀ next, t.Leads old next → next = word ∨ next ∈ seen)
    (leads : ReflTransGen t.Leads word target) : t.reaches target seen word = true := by
  fun_induction reaches t target seen word with
  | case1 => rfl
  | case2 seen word other again =>
      exfalso
      have inside : ∀ reached, ReflTransGen t.Leads word reached → reached ∈ seen := by
        intro reached leads
        induction leads with
        | refl => exact again
        | tail _ step ih =>
            rcases (passed _ ih).2 _ step with rfl | old
            · exact again
            · exact old
      exact (passed target (inside target leads)).1 rfl
  | case3 seen word other new unbound =>
      exact absurd ((reflTransGen_iff_of_unbound unbound).mp leads) other
  | case4 seen word other new value bound ih =>
      refine ih ?_ (((reflTransGen_iff_of_get? bound).mp leads).resolve_left other)
      intro old member
      rcases List.mem_cons.mp member with rfl | member
      · exact ⟨other, fun next step => Or.inl ((leads_iff_of_get? bound).mp step).symm⟩
      · obtain ⟨different, within⟩ := passed old member
        refine ⟨different, fun next step => Or.inr (List.mem_cons.mpr ?_)⟩
        exact within next step

theorem reflTransGen_of_reaches {seen : List String}
    (reached : t.reaches target seen word = true) : ReflTransGen t.Leads word target := by
  fun_induction reaches t target seen word with
  | case1 => exact .refl
  | case2 => cases reached
  | case3 => cases reached
  | case4 seen word other new value bound ih =>
      exact (reflTransGen_iff_of_get? bound).mpr (Or.inr (ih reached))

theorem reaches_eq_true_iff :
    t.reaches target [] word = true ↔ ReflTransGen t.Leads word target :=
  ⟨reflTransGen_of_reaches, reaches_of_reflTransGen fun _ member => by cases member⟩

/-! ## Definitions and removals -/

/-- The table with a name bound to a value, in the place of an older binding. -/
def define (t : AliasTable) (name value : String) : AliasTable :=
  ⟨t.bindings.insert name (Text.trim value)⟩

/-- The table without a name. -/
def undefine (t : AliasTable) (name : String) : AliasTable :=
  ⟨t.bindings.erase name⟩

@[simp]
theorem get?_define (t : AliasTable) (name value word : String) :
    (t.define name value).get? word = if word = name then some (Text.trim value) else t.get? word :=
  Dictionary.get?_insert t.bindings name word (Text.trim value)

@[simp]
theorem get?_undefine (t : AliasTable) (name word : String) :
    (t.undefine name).get? word = if word = name then none else t.get? word :=
  Dictionary.get?_erase t.bindings name word

theorem ext_get? {t t' : AliasTable} (same : ∀ name, t.get? name = t'.get? name) : t = t' :=
  congrArg AliasTable.mk (Dictionary.ext_get? same)

/-- Only the name that is defined leads elsewhere. -/
theorem leads_define_iff (t : AliasTable) (name value word next : String) :
    (t.define name value).Leads word next ↔
      if word = name then Text.firstWord value = next else t.Leads word next := by
  by_cases here : word = name
  · have bound : (t.define name value).get? word = some (Text.trim value) := by
      rw [get?_define, if_pos here]
    rw [leads_iff_of_get? bound, Text.firstWord_trim, if_pos here]
  · rw [if_neg here, Leads, get?_define, if_neg here, Leads]

/-- Everything that one table binds the other binds alike. -/
def Within (t full : AliasTable) : Prop :=
  ∀ name value, t.get? name = some value → full.get? name = some value

theorem Within.leads (within : Within t full) (leads : t.Leads word next) :
    full.Leads word next := by
  obtain ⟨value, bound, first⟩ := leads
  exact ⟨value, within word value bound, first⟩

theorem Within.hasCycle (within : Within t full) (cycle : t.HasCycle) : full.HasCycle := by
  obtain ⟨word, around⟩ := cycle
  exact ⟨word, TransGen.mono (fun _ _ step => within.leads step) word word around⟩

theorem within_undefine (t : AliasTable) (name : String) : Within (t.undefine name) t := by
  intro word value bound
  rw [get?_undefine] at bound
  split at bound
  · cases bound
  · exact bound

/-! ## Cycles -/

/-- A walk to the name does not need the new step, which begins at the name. -/
theorem reflTransGen_define (back : ReflTransGen t.Leads word name) :
    ReflTransGen (t.define name value).Leads word name := by
  induction back using ReflTransGen.head_induction_on with
  | refl => exact .refl
  | @head word next leads _ ih =>
      by_cases here : word = name
      · rw [here]
      · exact .head ((leads_define_iff t name value word next).mpr (by rwa [if_neg here])) ih

/-- A walk through the new table is one through the old table, unless it takes the new step.  Then
the old table leads to the name before the first time, and from the value on after the last. -/
theorem transGen_of_define (leads : TransGen (t.define name value).Leads word next) :
    TransGen t.Leads word next ∨
      ReflTransGen t.Leads word name ∧ ReflTransGen t.Leads (Text.firstWord value) next := by
  induction leads with
  | @single next step =>
      rw [leads_define_iff] at step
      split at step
      · next here =>
          subst here step
          exact Or.inr ⟨.refl, .refl⟩
      · exact Or.inl (.single step)
  | @tail middle next _ step ih =>
      rw [leads_define_iff] at step
      split at step
      · next here =>
          subst here step
          exact Or.inr ⟨ih.elim TransGen.to_reflTransGen And.left, .refl⟩
      · exact ih.imp (·.tail step) (And.imp_right (·.tail step))

/-- Where there was no cycle, a definition makes one just when its value leads back to its name. -/
theorem hasCycle_define_iff (acyclic : ¬ t.HasCycle) :
    (t.define name value).HasCycle ↔ ReflTransGen t.Leads (Text.firstWord value) name := by
  constructor
  · rintro ⟨word, around⟩
    rcases transGen_of_define around with old | ⟨before, behind⟩
    · exact absurd ⟨word, old⟩ acyclic
    · exact behind.trans before
  · intro back
    refine ⟨name, .head' ((leads_define_iff t name value name _).mpr (by rw [if_pos rfl])) ?_⟩
    exact reflTransGen_define back

/-- Without a cycle, no walk comes to a word twice. -/
theorem nodup_of_chain (acyclic : ¬ t.HasCycle) {walk : List String}
    (chain : walk.IsChain t.Leads) : walk.Nodup := by
  have onward : walk.IsChain (TransGen t.Leads) := chain.imp fun _ _ => .single
  refine (List.isChain_iff_pairwise.mp onward).imp ?_
  rintro word _ around rfl
  exact acyclic ⟨word, around⟩

end PipeShell.AliasTable
