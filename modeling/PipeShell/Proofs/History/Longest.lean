import PipeShell.Proofs.History.Completion

/-!
# Which line completes

The scan goes from the latest line to the earliest and lets go of a line only for a longer one.  So
it ends with a longest of the lines that contain what is wanted, and with the latest of these.  No
other line is both, which makes the line that is offered a matter of the history alone
(`complete_offers_latest_of_longest`).
-/

set_option autoImplicit false

namespace PipeShell.History

/-- A line between those before and those after it: none that contains what is sought is longer,
and none of the later ones is as long.  Length is counted in UTF-8 bytes. -/
structure Optimal (sought : String) (entries older : List String) (chosen : String)
    (newer : List String) : Prop where
  split : entries = older ++ chosen :: newer
  contained : sought.toList <:+: chosen.toList
  longest : ∀ entry ∈ entries, sought.toList <:+: entry.toList →
    entry.utf8ByteSize ≤ chosen.utf8ByteSize
  latest : ∀ entry ∈ newer, sought.toList <:+: entry.toList →
    entry.utf8ByteSize ≠ chosen.utf8ByteSize

variable {sought entry chosen other : String} {entries older newer older' newer' : List String}

/-! ## One more line -/

theorem Optimal.mem (best : Optimal sought entries older chosen newer) : chosen ∈ entries := by
  rw [best.split]
  exact List.mem_append_right _ List.mem_cons_self

theorem Optimal.cons (best : Optimal sought entries older chosen newer)
    (short : sought.toList <:+: entry.toList → entry.utf8ByteSize ≤ chosen.utf8ByteSize) :
    Optimal sought (entry :: entries) (entry :: older) chosen newer := by
  refine ⟨?_, best.contained, ?_, best.latest⟩
  · rw [best.split, List.cons_append]
  · intro line member within
    rcases List.mem_cons.mp member with rfl | member
    · exact short within
    · exact best.longest line member within

/-- An older line that is longer than all others takes their place. -/
theorem optimal_of_longer (contained : sought.toList <:+: entry.toList)
    (longer : ∀ line ∈ entries, sought.toList <:+: line.toList →
      line.utf8ByteSize < entry.utf8ByteSize) :
    Optimal sought (entry :: entries) [] entry entries := by
  refine ⟨rfl, contained, ?_, ?_⟩
  · intro line member within
    rcases List.mem_cons.mp member with rfl | member
    · exact Nat.le_refl _
    · exact Nat.le_of_lt (longer line member within)
  · intro line member within
    exact Nat.ne_of_lt (longer line member within)

/-! ## The scan -/

theorem optimal_of_scan (found : entries.reverse.foldl (better sought) none = some chosen) :
    ∃ older newer, Optimal sought entries older chosen newer := by
  -- the scan runs backwards, so the head of the list is the last line it comes to
  induction entries generalizing chosen with
  | nil => cases found
  | cons entry entries ih =>
      rw [List.reverse_cons, List.foldl_append, List.foldl_cons, List.foldl_nil, better] at found
      split at found
      · next taken =>
          obtain rfl := Option.some.inj found
          obtain ⟨contained, above⟩ := Bool.and_eq_true_iff.mp taken
          refine ⟨[], entries, optimal_of_longer (Text.contains_iff.mp contained) ?_⟩
          intro line member within
          cases later : entries.reverse.foldl (better sought) none with
          | none =>
              have absent := (foldl_better_eq_none_iff.mp later).2 line (List.mem_reverse.mpr member)
              rw [Text.contains_iff.mpr within] at absent
              cases absent
          | some kept =>
              obtain ⟨_, _, best⟩ := ih later
              have below := best.longest line member within
              rw [later, Option.all_some, decide_eq_true_eq] at above
              omega
      · next refused =>
          obtain ⟨older, newer, best⟩ := ih found
          refine ⟨entry :: older, newer, best.cons fun within => ?_⟩
          rw [found, Text.contains_iff.mpr within] at refused
          simpa using refused

/-- Of two lines that are both a longest one, the older is not the latest. -/
theorem Optimal.unique (best : Optimal sought entries older chosen newer)
    (also : Optimal sought entries older' other newer') : chosen = other := by
  have same : chosen.utf8ByteSize = other.utf8ByteSize :=
    Nat.le_antisymm (also.longest _ best.mem best.contained)
      (best.longest _ also.mem also.contained)
  have places : older ++ chosen :: newer = older' ++ other :: newer' :=
    best.split.symm.trans also.split
  rcases List.append_eq_append_iff.mp places with ⟨between, -, shape⟩ | ⟨between, -, shape⟩
  · cases between with
    | nil => exact (List.cons.inj shape).1
    | cons line between =>
        have later : other ∈ newer := by simp [(List.cons.inj shape).2]
        exact absurd same.symm (best.latest other later also.contained)
  · cases between with
    | nil => exact (List.cons.inj shape).1.symm
    | cons line between =>
        have later : chosen ∈ newer' := by simp [(List.cons.inj shape).2]
        exact absurd same (also.latest chosen later best.contained)

/-! ## The line offered -/

theorem optimal_of_complete {history : History} {fragment : String}
    (found : history.complete fragment = some chosen) :
    ∃ older newer, Optimal (wanted fragment) history.entries older chosen newer := by
  rw [complete] at found
  split at found
  · cases found
  · exact optimal_of_scan found

/-- Nothing is offered just when the fragment is nothing but backslashes or no line contains the
rest of it.  Otherwise it is the longest line that does, and the latest of the longest. -/
theorem complete_offers_latest_of_longest (history : History) (fragment : String) :
    (history.complete fragment = none ↔ wanted fragment = "" ∨
        ∀ entry ∈ history.entries, ¬ (wanted fragment).toList <:+: entry.toList) ∧
      ∀ chosen, history.complete fragment = some chosen ↔ wanted fragment ≠ "" ∧
        ∃ older newer,
          Optimal (wanted fragment) history.entries older chosen newer := by
  have nothing : history.complete fragment = none ↔ wanted fragment = "" ∨
      ∀ entry ∈ history.entries, ¬ (wanted fragment).toList <:+: entry.toList := by
    simp only [complete_eq_none_iff, ← Text.contains_iff, Bool.not_eq_true]
  refine ⟨nothing, fun chosen => ⟨fun found => ⟨?_, optimal_of_complete found⟩, ?_⟩⟩
  · intro empty
    rw [nothing.mpr (.inl empty)] at found
    cases found
  · rintro ⟨written, older, newer, best⟩
    cases offered : history.complete fragment with
    | none =>
        rcases nothing.mp offered with empty | absent
        · exact absurd empty written
        · exact absurd best.contained (absent chosen best.mem)
    | some other =>
        obtain ⟨_, _, also⟩ := optimal_of_complete offered
        rw [also.unique best]

example : complete ⟨["grep foo a.txt", "grep bar b.txt", "grep"]⟩ "grep\\\\" =
    some "grep bar b.txt" := by
  decide +kernel

end PipeShell.History
