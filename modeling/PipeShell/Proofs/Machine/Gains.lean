import PipeShell.Proofs.Machine.Opening

/-!
# Descriptors gained and given back

`Gains` says that a machine has the descriptors of an earlier one and new ones besides, which do not
outlive a change of program.  What is gained by one call and by the next is gained by both, and what
was gained can be closed again, in part or as a whole.
-/

set_option autoImplicit false

namespace PipeShell.Machine

variable {m m₁ m₂ : Machine} {numbers held first second : List Nat}

/-! ## Closing -/

theorem get?_closeAll (m : Machine) (numbers : List Nat) (number : Nat) :
    (m.closeAll numbers).table.get? number =
      if number ∈ numbers then none else m.table.get? number := by
  induction numbers generalizing m with
  | nil => rfl
  | cons closed numbers ih =>
      have rest := ih (m.close closed)
      rw [close, DescriptorTable.get?_close] at rest
      rw [closeAll, List.foldl_cons, ← closeAll, close, rest]
      by_cases same : number = closed <;> simp [same]

theorem closeAll_append (m : Machine) (first second : List Nat) :
    m.closeAll (first ++ second) = (m.closeAll first).closeAll second :=
  List.foldl_append

/-! ## Gaining -/

/-- The second machine has the descriptors of the first one and new ones at the numbers listed. -/
structure Gains (m m' : Machine) (numbers : List Nat) : Prop where
  distinct : numbers.Nodup
  free : ∀ number ∈ numbers, m.table.get? number = none
  here : ∀ number ∈ numbers, ∃ file, m'.table.get? number = some ⟨file, true⟩
  rest : ∀ number, number ∉ numbers → m'.table.get? number = m.table.get? number

namespace Gains

theorem refl (m : Machine) : Gains m m [] where
  distinct := List.nodup_nil
  free := by simp
  here := by simp
  rest _ _ := rfl

theorem of_adds {added : List (Nat × Descriptor)} (adds : Adds m m₁ added)
    (lost : ∀ entry ∈ added, entry.2.closeOnExec = true) :
    Gains m m₁ (added.map Prod.fst) where
  distinct := adds.distinct
  free := by
    intro number member
    obtain ⟨entry, listed, rfl⟩ := List.mem_map.mp member
    exact adds.free entry listed
  here := by
    intro number member
    obtain ⟨⟨number, ⟨file, flag⟩⟩, listed, rfl⟩ := List.mem_map.mp member
    obtain rfl : flag = true := lost _ listed
    exact ⟨file, adds.here _ listed⟩
  rest := adds.rest

theorem perm (gains : Gains m m₁ first) (same : first.Perm second) : Gains m m₁ second where
  distinct := same.nodup_iff.mp gains.distinct
  free number member := gains.free number (same.mem_iff.mpr member)
  here number member := gains.here number (same.mem_iff.mpr member)
  rest number absent := gains.rest number fun member => absent (same.mem_iff.mp member)

/-- A call that leaves the descriptors alone neither gains nor loses any. -/
theorem congr (gains : Gains m m₁ numbers) (same : m₂.table = m₁.table) :
    Gains m m₂ numbers where
  distinct := gains.distinct
  free := gains.free
  here := by rw [same]; exact gains.here
  rest := by rw [same]; exact gains.rest

theorem trans (before : Gains m m₁ first) (after : Gains m₁ m₂ second) :
    Gains m m₂ (second ++ first) := by
  have apart : ∀ number ∈ second, number ∉ first := by
    intro number gained held
    obtain ⟨file, taken⟩ := before.here number held
    rw [after.free number gained] at taken
    cases taken
  refine ⟨?_, ?_, ?_, ?_⟩
  · rw [List.nodup_append']
    exact ⟨after.distinct, before.distinct, apart⟩
  · intro number member
    rcases List.mem_append.mp member with gained | held
    · rw [← before.rest number (apart number gained)]
      exact after.free number gained
    · exact before.free number held
  · intro number member
    rcases List.mem_append.mp member with gained | held
    · exact after.here number gained
    · rw [after.rest number fun gained => apart number gained held]
      exact before.here number held
  · intro number absent
    rw [List.mem_append, not_or] at absent
    rw [after.rest number absent.1, before.rest number absent.2]

/-- What is closed is not gained any more. -/
theorem closeAll (gains : Gains m m₁ (numbers ++ held)) :
    Gains m (m₁.closeAll numbers) held := by
  obtain ⟨-, distinct, apart⟩ := List.nodup_append'.mp gains.distinct
  refine ⟨distinct, ?_, ?_, ?_⟩
  · intro number member
    exact gains.free number (List.mem_append_right _ member)
  · intro number member
    have kept : number ∉ numbers := fun closed => apart closed member
    rw [get?_closeAll, if_neg kept]
    exact gains.here number (List.mem_append_right _ member)
  · intro number absent
    rw [get?_closeAll]
    split
    · next closed => exact (gains.free number (List.mem_append_left _ closed)).symm
    · next kept =>
        exact gains.rest number fun member => (List.mem_append.mp member).elim kept absent

/-- A number is new in the second machine just when it was gained. -/
theorem mem_iff (gains : Gains m m₁ numbers) {number : Nat} :
    number ∈ numbers ↔ m.table.get? number = none ∧ m₁.table.get? number ≠ none := by
  constructor
  · intro member
    obtain ⟨file, taken⟩ := gains.here number member
    exact ⟨gains.free number member, by rw [taken]; exact Option.some_ne_none _⟩
  · rintro ⟨free, taken⟩
    by_contra absent
    rw [gains.rest number absent] at taken
    exact taken free

end Gains

/-! ## Calls -/

theorem gains_of_openPipe {m m' : Machine} {reader writer : Nat}
    (opened : m.openPipe = (.ok (reader, writer), m')) : Gains m m' [reader, writer] :=
  .of_adds (openPipe_spec opened).1 (by simp)

theorem gains_of_openInput {m m' : Machine} {path : String} {number : Nat}
    (opened : m.openInput path = (.ok number, m')) : Gains m m' [number] := by
  obtain ⟨_, -, adds, -⟩ := openInput_spec opened
  exact .of_adds adds (by simp)

theorem gains_of_openOutput {m m' : Machine} {path : String} {number : Nat}
    (opened : m.openOutput path = (.ok number, m')) : Gains m m' [number] := by
  obtain ⟨_, _, -, adds, -⟩ := openOutput_spec opened
  exact .of_adds adds (by simp)

end PipeShell.Machine
