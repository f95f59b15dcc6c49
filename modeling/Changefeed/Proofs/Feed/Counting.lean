import Changefeed.Feed.Meters

/-!
# Counting

Counting some more of a tally raises its own counter and leaves the gauge and the
other counters as they are (`Meters.counter_add`), and several tallies are
counted one after the other (`Meters.counter_addAll`).
-/

namespace Changefeed

theorem Meters.counter_showing (m : Meters) (p : Position) (t : Tally) :
    ({ m with position := p } : Meters).counter t = m.counter t := by
  cases t <;> rfl

/-- Counting leaves the gauge as it is. -/
theorem Meters.add_position (m : Meters) (n : Nat) (t : Tally) :
    (m.add n t).position = m.position := by
  obtain ⟨scope, assembled, published, outOfOrder, errors, position⟩ := m
  cases t <;> rfl

/-- Counting some more of a tally changes its counter and no other. -/
theorem Meters.counter_add (m : Meters) (n : Nat) (t u : Tally) :
    (m.add n t).counter u = if u = t then (m.counter u).add n else m.counter u := by
  obtain ⟨scope, assembled, published, outOfOrder, errors, position⟩ := m
  cases t <;> cases u <;> simp [Meters.add, Meters.counter]

/-- Counting one more of several tallies changes their counters, each by one. -/
theorem Meters.counter_addAll {ts : List Tally} (u : Tally) : ∀ {m : Meters}, ts.Nodup →
    (ts.foldl (fun m t => m.add 1 t) m).counter u =
      if u ∈ ts then (m.counter u).add 1 else m.counter u := by
  induction ts with
  | nil => intro m _; simp
  | cons t rest ih =>
    intro m hnd
    obtain ⟨hnew, hrest⟩ := List.nodup_cons.1 hnd
    rw [List.foldl_cons, ih hrest, Meters.counter_add]
    by_cases hut : u = t
    · subst hut
      rw [if_neg hnew, if_pos rfl, if_pos List.mem_cons_self]
    · rw [if_neg hut]
      simp only [List.mem_cons, hut, false_or]

end Changefeed
