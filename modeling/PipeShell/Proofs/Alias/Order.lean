import PipeShell.Proofs.Alias.Calls

/-!
# The order of definitions

A definition is checked against those before it only.  Still it makes no difference in which order
names are defined: as long as every definition is accepted, the table is that of the definitions so
far (`TableOf`), and it has a cycle just when these have one.  The definition that closes a cycle is
always the last of it that is left, whichever that is, and it is refused.  So a set of definitions
is accepted as a whole in every order, with one and the same table, or it is refused in every order
(`accepted_in_every_order_iff`).
-/

set_option autoImplicit false

namespace PipeShell.AliasTable

open Relation (TransGen)

variable {t t' : AliasTable} {name value word next : String}
  {defs order earlier later : List (String × String)}

/-! ## Sets of definitions -/

/-- A definition leads from its name to the first word of what is written for it. -/
def LeadsIn (defs : List (String × String)) (word next : String) : Prop :=
  ∃ d ∈ defs, d.1 = word ∧ Text.firstWord d.2 = next

instance (defs : List (String × String)) (word next : String) :
    Decidable (LeadsIn defs word next) :=
  inferInstanceAs (Decidable (∃ d ∈ defs, d.1 = word ∧ Text.firstWord d.2 = next))

/-- The definitions, taken together, lead from some word back to it. -/
def Circular (defs : List (String × String)) : Prop :=
  ∃ word, TransGen (LeadsIn defs) word word

theorem Circular.mono (circular : Circular earlier) (among : earlier ⊆ defs) : Circular defs := by
  obtain ⟨word, around⟩ := circular
  refine ⟨word, TransGen.mono ?_ word word around⟩
  rintro word next ⟨d, member, leads⟩
  exact ⟨d, among member, leads⟩

/-- The definitions are of different names, all valid, and something is written for each. -/
structure Proper (defs : List (String × String)) : Prop where
  distinct : (defs.map Prod.fst).Nodup
  named : ∀ d ∈ defs, isValidName d.1 = true
  valued : ∀ d ∈ defs, Text.isBlank d.2 = false

theorem Proper.perm (proper : Proper defs) (same : order.Perm defs) : Proper order where
  distinct := (same.map Prod.fst).nodup_iff.mpr proper.distinct
  named d member := proper.named d (same.mem_iff.mp member)
  valued d member := proper.valued d (same.mem_iff.mp member)

/-! ## The table of a set -/

/-- The table binds each name that is defined to what is written for it, trimmed, and nothing
else. -/
def TableOf (defs : List (String × String)) (t : AliasTable) : Prop :=
  ∀ name value, t.get? name = some value ↔ ∃ d ∈ defs, d.1 = name ∧ Text.trim d.2 = value

theorem tableOf_nil : TableOf [] empty := by
  intro name value
  constructor
  · intro bound
    cases bound
  · rintro ⟨d, member, -⟩
    cases member

theorem TableOf.eq (table : TableOf defs t) (table' : TableOf defs t') : t = t' := by
  refine ext_get? fun name => Option.ext fun value => ?_
  rw [table name value, table' name value]

theorem TableOf.perm (table : TableOf order t) (same : order.Perm defs) : TableOf defs t := by
  intro name value
  simp only [table name value, same.mem_iff]

theorem TableOf.define (table : TableOf earlier t) (new : name ∉ earlier.map Prod.fst) :
    TableOf (earlier ++ [(name, value)]) (t.define name value) := by
  intro word bound
  rw [get?_define]
  simp only [List.mem_append, List.mem_singleton, or_and_right, exists_or, exists_eq_left]
  by_cases here : word = name
  -- the name is new, so no earlier definition says anything of it
  · subst here
    have none : ¬ ∃ d ∈ earlier, d.1 = word ∧ Text.trim d.2 = bound := by
      rintro ⟨d, member, rfl, -⟩
      exact new (List.mem_map_of_mem member)
    simp [none]
  · have other : ¬ name = word := fun same => here same.symm
    simp [here, other, table word bound]

theorem TableOf.leads_iff (table : TableOf defs t) :
    t.Leads word next ↔ LeadsIn defs word next := by
  constructor
  · rintro ⟨value, bound, leads⟩
    obtain ⟨d, member, named, rfl⟩ := (table word value).mp bound
    exact ⟨d, member, named, by rw [← leads, Text.firstWord_trim]⟩
  · rintro ⟨d, member, named, leads⟩
    refine ⟨Text.trim d.2, (table word _).mpr ⟨d, member, named, rfl⟩, ?_⟩
    rw [Text.firstWord_trim, leads]

theorem TableOf.hasCycle_iff (table : TableOf defs t) : t.HasCycle ↔ Circular defs := by
  have same : t.Leads = LeadsIn defs := by
    funext word next
    exact propext table.leads_iff
  rw [HasCycle, Circular, same]

/-! ## One definition after the other -/

/-- The calls that make the definitions. -/
def defining (defs : List (String × String)) : List Call :=
  defs.map fun d => .add d.1 d.2

/-- The next definition is accepted as long as the cycle, if there is one, is not complete. -/
theorem TableOf.add (table : TableOf earlier t) (new : name ∉ earlier.map Prod.fst)
    (valid : isValidName name = true) (written : Text.isBlank value = false)
    (acyclic : ¬ Circular (earlier ++ [(name, value)])) :
    t.add name value = .ok (t.define name value) := by
  have before : ¬ t.HasCycle := fun cycle =>
    acyclic ((table.hasCycle_iff.mp cycle).mono (List.subset_append_left _ _))
  have after : ¬ (t.define name value).HasCycle :=
    (table.define new).hasCycle_iff.not.mpr acyclic
  refine add_eq_ok_iff.mpr ⟨valid, written, ?_, rfl⟩
  rwa [hasCycle_define_iff before] at after

theorem addAll_cons (t : AliasTable) (d : String × String) (defs : List (String × String)) :
    t.addAll (d :: defs) = (t.add d.1 d.2).bind fun t => t.addAll defs :=
  List.foldlM_cons

theorem Proper.new (proper : Proper (earlier ++ (name, value) :: later)) :
    name ∉ earlier.map Prod.fst := by
  have distinct := proper.distinct
  rw [List.map_append, List.map_cons] at distinct
  exact fun member => (List.nodup_append.mp distinct).2.2 name member name List.mem_cons_self rfl

/-- When there is no cycle, all that is left to define is accepted. -/
theorem TableOf.addAll (table : TableOf earlier t) (proper : Proper (earlier ++ later))
    (acyclic : ¬ Circular (earlier ++ later)) : ∃ t', t.addAll later = .ok t' := by
  -- each definition that is made moves from the later ones to the earlier ones
  induction later generalizing earlier t with
  | nil => exact ⟨t, rfl⟩
  | cons d later ih =>
      obtain ⟨name, value⟩ := d
      have member : (name, value) ∈ earlier ++ (name, value) :: later := by simp
      have among : earlier ++ [(name, value)] ⊆ earlier ++ (name, value) :: later := by simp
      have added : t.add name value = .ok (t.define name value) :=
        table.add proper.new (proper.named _ member) (proper.valued _ member)
          fun circular => acyclic (circular.mono among)
      have new := proper.new
      rw [List.append_cons] at proper acyclic
      rw [addAll_cons, added]
      exact ih (table.define new) proper acyclic

theorem TableOf.of_addAll (table : TableOf earlier t) (proper : Proper (earlier ++ later))
    (added : t.addAll later = .ok t') : TableOf (earlier ++ later) t' := by
  induction later generalizing earlier t with
  | nil =>
      obtain rfl := Except.ok.inj added
      rwa [List.append_nil]
  | cons d later ih =>
      obtain ⟨name, value⟩ := d
      rw [addAll_cons] at added
      cases outcome : t.add name value with
      | error cause =>
          rw [outcome] at added
          cases added
      | ok between =>
          obtain ⟨-, -, -, rfl⟩ := add_eq_ok_iff.mp outcome
          rw [outcome] at added
          have new := proper.new
          rw [List.append_cons] at proper ⊢
          exact ih (table.define new) proper added

/-- Where one definition is refused, the first such is refused after those before it. -/
theorem refused_of_addAll {cause : BuiltinError} (refused : t.addAll defs = .error cause) :
    ∃ before name value behind, defs = before ++ (name, value) :: behind ∧
      (t.afterAll (defining before)).add name value = .error cause := by
  induction defs generalizing t with
  | nil => cases refused
  | cons d defs ih =>
      obtain ⟨name, value⟩ := d
      rw [addAll_cons] at refused
      cases outcome : t.add name value with
      | error other =>
          rw [outcome] at refused
          obtain rfl := Except.error.inj refused
          exact ⟨[], name, value, defs, rfl, outcome⟩
      | ok t' =>
          rw [outcome] at refused
          obtain ⟨before, last, written, behind, rfl, here⟩ := ih refused
          refine ⟨(name, value) :: before, last, written, behind, rfl, ?_⟩
          rw [defining, List.map_cons, afterAll, List.foldl_cons, after_of_add outcome]
          exact here

theorem afterAll_of_addAll (added : t.addAll defs = .ok t') : t.afterAll (defining defs) = t' := by
  induction defs generalizing t with
  | nil => exact Except.ok.inj added
  | cons d defs ih =>
      rw [addAll_cons] at added
      cases outcome : t.add d.1 d.2 with
      | error cause =>
          rw [outcome] at added
          cases added
      | ok between =>
          rw [outcome] at added
          rw [defining, List.map_cons, afterAll, List.foldl_cons, after_of_add outcome]
          exact ih added

/-! ## Any order -/

theorem not_circular_of_addAll (proper : Proper defs) (added : empty.addAll defs = .ok t) :
    ¬ Circular defs := by
  have sound : t.Sound := afterAll_of_addAll added ▸ sound_afterAll sound_empty (defining defs)
  have table : TableOf defs t := tableOf_nil.of_addAll proper added
  exact fun circular => sound.acyclic (table.hasCycle_iff.mpr circular)

theorem TableOf.of_perm (proper : Proper defs) (same : order.Perm defs)
    (added : empty.addAll order = .ok t) : TableOf defs t :=
  (tableOf_nil.of_addAll (proper.perm same) added).perm same

theorem not_circular_of_perm (proper : Proper defs) (same : order.Perm defs)
    (added : empty.addAll order = .ok t) : ¬ Circular defs := fun circular =>
  not_circular_of_addAll (proper.perm same) added (circular.mono same.symm.subset)

theorem Proper.refused_for_cycle {cause : BuiltinError} (proper : Proper defs)
    (member : (name, value) ∈ defs) (refused : t.add name value = .error cause) :
    cause = .aliasCycle name := by
  rw [add_of_valid (proper.named _ member) (proper.valued _ member)] at refused
  split at refused
  · exact (Except.error.inj refused).symm
  · cases refused

/-- Made in any order, definitions of different names are all accepted, and give the same table
then, just when taken together they have no cycle.  The table is that of what is written for each.
When they do have a cycle, every order comes to a definition that is refused, for a cycle, with
those before it made as far as they were accepted. -/
theorem accepted_in_every_order_iff (defs : List (String × String)) (proper : Proper defs) :
    (¬ Circular defs ↔ ∃ t, ∀ order, order.Perm defs → empty.addAll order = .ok t) ∧
    (∀ order t, order.Perm defs → empty.addAll order = .ok t →
      TableOf defs t ∧ empty.afterAll (defining order) = t ∧ ¬ Circular defs) ∧
    (Circular defs → ∀ order, order.Perm defs →
      ∃ before name value behind, order = before ++ (name, value) :: behind ∧
        (empty.afterAll (defining before)).add name value = .error (.aliasCycle name)) := by
  refine ⟨⟨fun acyclic => ?_, ?_⟩, ?_, ?_⟩
  -- every order is accepted, and each gives the table of the set
  · have each : ∀ order, order.Perm defs → ∃ t, empty.addAll order = .ok t := by
      intro order same
      exact tableOf_nil.addAll (proper.perm same) fun circular =>
        acyclic (circular.mono same.subset)
    obtain ⟨t, added⟩ := each defs (.refl defs)
    refine ⟨t, fun order same => ?_⟩
    obtain ⟨t', added'⟩ := each order same
    rw [added', (TableOf.of_perm proper same added').eq (.of_perm proper (.refl defs) added)]
  · rintro ⟨t, added⟩
    exact not_circular_of_perm proper (.refl defs) (added defs (.refl defs))
  · intro order t same added
    exact ⟨.of_perm proper same added, afterAll_of_addAll added,
      not_circular_of_perm proper same added⟩
  · intro circular order same
    cases outcome : empty.addAll order with
    | ok t => exact absurd circular (not_circular_of_perm proper same outcome)
    | error cause =>
        obtain ⟨before, name, value, behind, rfl, refused⟩ := refused_of_addAll outcome
        have member : (name, value) ∈ defs := same.subset (by simp)
        obtain rfl := proper.refused_for_cycle member refused
        exact ⟨before, name, value, behind, rfl, refused⟩

/-- Four names, each of which stands for the next. -/
def circle : List (String × String) :=
  [("a", "b"), ("b", "c -l"), ("c", " d"), ("d", "a -x")]

theorem circle_refused_in_every_order :
    Proper circle ∧ ¬ (∃ t, ∀ order, order.Perm circle → empty.addAll order = .ok t) ∧
    ∀ order, order.Perm circle →
      ∃ before name value behind, order = before ++ (name, value) :: behind ∧
        (empty.afterAll (defining before)).add name value = .error (.aliasCycle name) := by
  have proper : Proper circle := ⟨by decide, by decide, by decide⟩
  have circular : Circular circle := by
    have ab : LeadsIn circle "a" "b" := by decide
    have bc : LeadsIn circle "b" "c" := by decide
    have cd : LeadsIn circle "c" "d" := by decide
    have da : LeadsIn circle "d" "a" := by decide
    exact ⟨"a", (((TransGen.single ab).tail bc).tail cd).tail da⟩
  obtain ⟨whole, -, refused⟩ := accepted_in_every_order_iff circle proper
  exact ⟨proper, fun all => whole.mpr all circular, refused circular⟩

end PipeShell.AliasTable
