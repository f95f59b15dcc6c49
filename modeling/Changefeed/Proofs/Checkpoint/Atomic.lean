import Changefeed.Proofs.Checkpoint.Revision

/-!
# The file is old or new

Whatever fails in the course of a call, the file holds what it held before or the
whole document of what the store knows by then, and nothing else on the disk has
changed (`call_atomic`). It is the new document as soon as the staged file is
renamed; a failure to force the directory to the medium comes too late to take
that back.
-/

namespace Changefeed

/-- The key that a call is about. -/
def StoreCall.key : StoreCall → Text
  | .load key | .save key _ | .reset key _ => key

namespace FileStore

/-- A document that has a field for every position and for every corrupt entry of a store, and no
other fields. -/
def IsComplete (s : FileStore) (document : Json) : Prop :=
  ∃ fields : Keyed Text Json, document = .record fields.toList ∧
    ∀ key, fields.get? key =
      ((s.positions.get? key).map fun n => .text (Position.known n).text).or (s.corrupt.get? key)

theorem isComplete_document (s : FileStore) : s.IsComplete s.document := ⟨s.fields, rfl, s.get?_fields⟩

/-- Whether the file is replaced in the course of a call: it is if the staged file gets as far as
being renamed. -/
def replaces (m : Mounted) (c : StoreCall) : Bool :=
  (m.store.written? c).isSome && (failure? m c = none || failure? m c = some .syncDirectory)

/-- Refused is a reset that does not know what it replaces, and a call about a corrupt entry. -/
theorem refusal?_cases {s : FileStore} {c : StoreCall} {f : Fault} (h : s.refusal? c = some f) :
    (∃ r cause, c = .reset c.key r ∧ r.refusal? (s.positions.get? c.key) = some cause
        ∧ f = .argument cause)
      ∨ ∃ entry, s.corrupt.get? c.key = some entry
        ∧ f = .format (.badEntry entry c.key s.path.text) := by
  have hcorruption : ∀ {key f}, s.corruption? key = some f →
      ∃ entry, s.corrupt.get? key = some entry ∧ f = .format (.badEntry entry key s.path.text) := by
    intro key f h
    obtain ⟨entry, hentry, rfl⟩ := Option.map_eq_some_iff.1 h
    exact ⟨entry, hentry, rfl⟩
  cases c with
  | load key => exact .inr (hcorruption h)
  | save key p =>
    cases p with
    | null => cases h
    | known n => exact .inr (hcorruption h)
  | reset key r =>
    rcases Option.or_eq_some_iff.1 h with h | ⟨_, h⟩
    · split at h
      · cases h
      · exact .inr (hcorruption h)
    · obtain ⟨cause, hcause, rfl⟩ := Option.map_eq_some_iff.1 h
      exact .inl ⟨r, cause, rfl, hcause, rfl⟩

/-- What a call does to the disk. -/
theorem replaces_cases (c : StoreCall) (m : Logged Mounted) :
    (replaces m.state c = true
        ∧ Disk.Replaced m.state.disk m.state.store.path ((call c).after m).state.store.written
            ((call c).after m).state.disk)
      ∨ (replaces m.state c = false ∧ ((call c).after m).state.disk.nodes = m.state.disk.nodes) := by
  unfold replaces
  cases call_ending c m with
  | refused refusal run =>
    rw [Act.after_of_error run, written?_of_refusal refusal]
    exact .inr ⟨rfl, rfl⟩
  | needless refusal written run =>
    rw [Act.after_of_ok run, written]
    exact .inr ⟨rfl, rfl⟩
  | replaced refusal written failure run store disk =>
    rw [Act.after_of_ok run, written, failure, ← path_of_written? written, store]
    exact .inl ⟨rfl, disk⟩
  | unforced refusal written failure run store disk =>
    rw [Act.after_of_error run, written, failure, ← path_of_written? written, store]
    exact .inl ⟨rfl, disk⟩
  | failed refusal written failure early run store disk =>
    rw [Act.after_of_error run, written, failure]
    exact .inr ⟨by simp [early], disk⟩

/-- A call fails exactly if it is refused or a file call fails. -/
theorem call_error_iff (c : StoreCall) (m : Logged Mounted) :
    (∃ f, call c m = .error f ((call c).after m)) ↔
      (∃ f, m.state.store.refusal? c = some f) ∨ ∃ step, failure? m.state c = some step := by
  cases call_ending c m with
  | refused refusal run =>
    rw [Act.after_of_error run]
    exact ⟨fun _ => .inl ⟨_, refusal⟩, fun _ => ⟨_, run⟩⟩
  | needless refusal written run =>
    rw [run, refusal, failure?_of_unwritten written]
    simp
  | replaced refusal written failure run store disk =>
    rw [run, refusal, failure]
    simp
  | unforced refusal written failure run store disk =>
    rw [Act.after_of_error run]
    exact ⟨fun _ => .inr ⟨_, failure⟩, fun _ => ⟨_, run⟩⟩
  | failed refusal written failure early run store disk =>
    rw [Act.after_of_error run]
    exact ⟨fun _ => .inr ⟨_, failure⟩, fun _ => ⟨_, run⟩⟩

theorem call_of_refusal {c : StoreCall} {m : Logged Mounted} {f : Fault}
    (h : m.state.store.refusal? c = some f) : call c m = .error f m := by
  obtain ⟨ns, hrun⟩ := call_run c m
  rw [h] at hrun
  exact hrun

/--
**A call replaces the file as a whole or not at all.**

In any state of a store and its disk, with any file calls failing, a call leaves
the file with what it held before, or with the document of all that the store
knows after the call: with that one exactly if the call changes anything and no
file call fails before the directory is forced to the medium. Everything else on
the disk is as it was, so no staged file is left. The call fails exactly if it is
refused, and then nothing has happened at all, or if a file call fails.
-/
theorem call_atomic (c : StoreCall) (m : Logged Mounted) :
    (∃ document, ((call c).after m).state.store.IsComplete document
      ∧ ((call c).after m).state.disk.content? m.state.store.path =
        if replaces m.state c then some (.text (Json.write document))
        else m.state.disk.content? m.state.store.path)
    ∧ (∀ l, replaces m.state c = false ∨ l ≠ m.state.store.path.target →
      ((call c).after m).state.disk.node? l = m.state.disk.node? l)
    ∧ ((∃ f, call c m = .error f ((call c).after m)) ↔
      (∃ f, m.state.store.refusal? c = some f) ∨ ∃ step, failure? m.state c = some step)
    ∧ ∀ f, m.state.store.refusal? c = some f → call c m = .error f m
      ∧ ((∃ r cause, c = .reset c.key r ∧ r.refusal? (m.state.store.positions.get? c.key) = some cause
          ∧ f = .argument cause)
        ∨ ∃ entry, m.state.store.corrupt.get? c.key = some entry
          ∧ f = .format (.badEntry entry c.key m.state.store.path.text)) := by
  refine ⟨⟨_, isComplete_document _, ?_⟩, fun l hl => ?_, call_error_iff c m, fun f hf =>
    ⟨call_of_refusal hf, refusal?_cases hf⟩⟩
  · rcases replaces_cases c m with ⟨hreplaces, hr⟩ | ⟨hreplaces, hsame⟩
    · rw [if_pos hreplaces]
      exact hr.content?
    · rw [if_neg (by simp [hreplaces])]
      exact Disk.content?_congr hsame _
  · rcases replaces_cases c m with ⟨hreplaces, hr⟩ | ⟨_, hsame⟩
    · have hne : l ≠ m.state.store.path.target := hl.resolve_left (by simp [hreplaces])
      rw [hr.node?, if_neg (Ne.symm hne)]
    · exact Disk.node?_congr hsame l

end FileStore

end Changefeed
