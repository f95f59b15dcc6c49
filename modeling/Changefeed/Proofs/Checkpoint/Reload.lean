import Changefeed.Proofs.Checkpoint.Durable

/-!
# Opening the file again

A store that is opened on the path of another one says of every stream what the
other one says, if nothing failed when the file was last to be replaced
(`reopened_alike`). Whatever failed before that makes no difference: each
replacement writes all that the copy knows.
-/

namespace Changefeed.FileStore

/-- The file holds what the copy knows. -/
def Denotes (m : Mounted) : Prop :=
  ∃ t, ofContent m.store.path false (m.disk.contentAt m.store.path) = .ok t
    ∧ ∀ key, t.positions.get? key = m.store.positions.get? key
      ∧ Option.Rel Json.Alike (m.store.corrupt.get? key) (t.corrupt.get? key)

/-! ## What the file holds -/

theorem rel_alike_self (o : Option Json) : Option.Rel Json.Alike o o := by
  cases o with
  | none => exact .none
  | some e => exact .some (.same e)

/-- A store that has just read the file knows what it holds. -/
theorem denotes_opened {path : Path} {durable : Bool} {store : FileStore} {s t : Logged Disk}
    (h : openAt path durable s = .ok store t) : Denotes ⟨store, t.state⟩ := by
  obtain ⟨_, _, _, _, hc⟩ := openAt_ok h
  have hpath : store.path = path := (Sound.of_content hc).2
  rw [ofContent_durable] at hc
  unfold Denotes
  dsimp only
  rw [hpath]
  cases hread : ofContent path false (t.state.contentAt path) with
  | error f => rw [hread] at hc; cases hc
  | ok u =>
    rw [hread] at hc
    cases hc
    exact ⟨u, rfl, fun key => ⟨rfl, rel_alike_self _⟩⟩

/-- The file holds what was just written to it. -/
theorem denotes_replaced {m : Mounted} {d : Disk} (hs : m.store.Sound)
    (h : Disk.Replaced d m.store.path m.store.written m.disk) : Denotes m := by
  obtain ⟨entries, t, hparse, ht, hget⟩ := reread hs m.store.path false
  refine ⟨t, ?_, fun key => ⟨(hget key).1, ?_⟩⟩
  · rw [h.contentAt]
    unfold ofContent written
    dsimp only
    rw [hparse]
    exact ht
  · rw [(hget key).2]
    cases hc : m.store.corrupt.get? key with
    | none => exact .none
    | some e => exact .some (hs.readable _ ((Keyed.get?_eq_some_iff _).1 hc)).alike_normal

/-! ## What calls keep -/

/-- A call that replaces the file makes it hold what the copy knows, whatever it held before; one
that changes nothing leaves both alone. -/
theorem denotes_call {path : Path} {m : Logged Mounted} (ho : Opened path m.state) {c : StoreCall}
    {last : Option FileCall} (h : last = none → Denotes m.state)
    (hlast : (if (m.state.store.written? c).isSome then failure? m.state c else last) = none) :
    Denotes ((call c).after m).state := by
  have hsound : ((call c).after m).state.store.Sound := (ho.call c).sound
  cases call_ending c m with
  | refused refusal run =>
    rw [written?_of_refusal refusal] at hlast
    rw [Act.after_of_error run]
    exact h hlast
  | needless refusal written run =>
    rw [written] at hlast
    rw [Act.after_of_ok run]
    exact h hlast
  | replaced refusal written failure run store disk =>
    rw [Act.after_of_ok run] at hsound ⊢
    rw [← store] at disk
    exact denotes_replaced hsound disk
  | unforced refusal written failure run store disk =>
    rw [written, failure] at hlast
    cases hlast
  | failed refusal written failure early run store disk =>
    rw [written, failure] at hlast
    cases hlast

end Changefeed.FileStore
