import Changefeed.Proofs.Checkpoint.Atomic
import Changefeed.Proofs.Checkpoint.Mirror

/-!
# A cell for each stream

A checkpoint store keeps all its streams in one map, and a store on a file writes
them all at once. For whoever calls it, it might as well have a cell for each
stream, with the position of that stream in it or the fault of an entry that
denotes none. What a call ends with depends on the cell of its own key alone
(`verdict`), and so does what it leaves there (`leaves`); the other cells stay as
they are.

What it leaves is left even if the file could not be replaced (`Celled`), because
the copy changes first. What it ends with takes a file that can be replaced.
-/

namespace Changefeed

/-- What is stored for a stream: its position, or the fault of an entry that denotes none. -/
abbrev Cell := Except Fault Position

namespace StoreCall

/-- What a call ends with, by the cell of its key, if nothing else fails. -/
def verdict : StoreCall → Cell → Except Fault (Option Position)
  | .load _, cell => cell.map some
  | .save _ .null, _ => .ok none
  | .save _ (.known _), cell => cell.map fun _ => none
  | .reset _ r, .ok q =>
    match r.refusal? q.known? with
    | some cause => .error (.argument cause)
    | none => .ok none
  | .reset _ r, .error f => if r.force then .ok none else .error f

/-- What a call leaves in the cell of its key. -/
def leaves : StoreCall → Cell → Cell
  | .load _, cell => cell
  | .save _ p, cell => cell.map (max · p)
  | .reset _ r, .ok q => .ok (if r.refusal? q.known? = none then .ofKnown r.sequence? else q)
  | .reset _ r, .error f => if r.force then .ok (.ofKnown r.sequence?) else .error f

theorem verdict_reset_of_none {key : Text} {r : Reset} {q : Position}
    (h : r.refusal? q.known? = none) : (reset key r).verdict (.ok q) = .ok none := by
  unfold verdict
  dsimp only
  rw [h]

theorem verdict_reset_of_some {key : Text} {r : Reset} {q : Position} {cause : ArgumentCause}
    (h : r.refusal? q.known? = some cause) :
    (reset key r).verdict (.ok q) = .error (.argument cause) := by
  unfold verdict
  dsimp only
  rw [h]

/-- A call that is refused leaves its cell as it is. -/
theorem leaves_of_error {c : StoreCall} {cell : Cell} {f : Fault} (h : c.verdict cell = .error f) :
    c.leaves cell = cell := by
  cases c with
  | load key => rfl
  | save key p =>
    cases cell with
    | error g => rfl
    | ok q => cases p <;> cases h
  | reset key r =>
    unfold verdict at h
    unfold leaves
    cases cell with
    | error g =>
      dsimp only at h ⊢
      split at h
      · cases h
      · rename_i hforce
        rw [if_neg hforce]
    | ok q =>
      dsimp only at h ⊢
      cases hrefusal : r.refusal? q.known? with
      | none => rw [hrefusal] at h; cases h
      | some cause => rfl

/-- A reset that is not refused leaves what it asked for. -/
theorem leaves_of_reset {key : Text} {r : Reset} {cell : Cell} {a : Option Position}
    (h : (reset key r).verdict cell = .ok a) :
    (reset key r).leaves cell = .ok (.ofKnown r.sequence?) := by
  unfold verdict at h
  unfold leaves
  cases cell with
  | error g =>
    dsimp only at h ⊢
    split at h
    · rename_i hforce
      rw [if_pos hforce]
    · cases h
  | ok q =>
    dsimp only at h ⊢
    cases hrefusal : r.refusal? q.known? with
    | none => rfl
    | some cause => rw [hrefusal] at h; cases h

end StoreCall

/-- A store with a cell for each stream. -/
class Celled (σ : Type) [CheckpointStore σ] : Prop where
  own : ∀ (c : StoreCall) (s : Logged σ),
    CheckpointStore.load ((answer c).after s).state c.key =
      c.leaves (CheckpointStore.load s.state c.key)
  others : ∀ (c : StoreCall) (s : Logged σ) (key : Text), c.key ≠ key →
    CheckpointStore.load ((answer c).after s).state key = CheckpointStore.load s.state key

/-- Only what a call does to the store counts for what is stored, not what it returns. -/
theorem answer_save_after {σ : Type} [CheckpointStore σ] (key : Text) (p : Position)
    (s : Logged σ) : (answer (.save key p)).after s = (CheckpointStore.save key p).after s :=
  Act.after_bind_pure (CheckpointStore.save key p) (fun _ => none) s

theorem answer_reset_after {σ : Type} [CheckpointStore σ] (key : Text) (r : Reset)
    (s : Logged σ) : (answer (.reset key r)).after s = (CheckpointStore.reset key r).after s :=
  Act.after_bind_pure (CheckpointStore.reset key r) (fun _ => none) s

@[simp] theorem Position.known?_ofKnown (o : Option Sequence) :
    (Position.ofKnown o).known? = o := by
  cases o <;> rfl

/-! ## In memory -/

namespace MemoryStore

theorem verdict_load (c : StoreCall) (s : MemoryStore) :
    c.verdict (.ok (s.load c.key)) = match s.refusal? c with
      | some f => .error f
      | none => .ok (s.returned c) := by
  cases c with
  | load key => rfl
  | save key p => cases p <;> rfl
  | reset key r =>
    unfold StoreCall.verdict refusal? load
    dsimp only [StoreCall.key]
    rw [Position.known?_ofKnown]
    cases r.refusal? (s.positions.get? key) <;> rfl

/-- A call ends by what is in the cell of its key. -/
theorem result_answer (c : StoreCall) (s : Logged MemoryStore) :
    (answer c).result s = c.verdict (.ok (s.state.load c.key)) := by
  unfold Act.result
  rw [answer_run, verdict_load]
  cases s.state.refusal? c <;> rfl

theorem answer_of_refused {c : StoreCall} {s : Logged MemoryStore} {f : Fault}
    (h : c.verdict (.ok (s.state.load c.key)) = .error f) : answer c s = .error f s := by
  rw [verdict_load] at h
  rw [answer_run]
  cases hrefusal : s.state.refusal? c with
  | some g => rw [hrefusal] at h; cases h; rfl
  | none => rw [hrefusal] at h; cases h

theorem load_save_of_ne {key key' : Text} (h : key ≠ key') (p : Position)
    (s : Logged MemoryStore) : ((save key p).after s).state.load key' = s.state.load key' := by
  cases p with
  | null => rfl
  | known n =>
    rw [save_eq]
    show MemoryStore.load (if FileStore.covers (s.state.positions.get? key) n = true then s.state
      else ⟨s.state.positions.insert key n⟩) key' = _
    split
    · rfl
    · exact congrArg Position.ofKnown (Keyed.get?_insert_of_ne _ h n)

theorem reset_after (key : Text) (r : Reset) (s : Logged MemoryStore) :
    ((answer (.reset key r)).after s).state =
      if r.refusal? (s.state.positions.get? key) = none
      then ⟨s.state.positions.set key r.sequence?⟩ else s.state := by
  unfold Act.after
  rw [answer_run, ← replace_eq]
  unfold refusal?
  dsimp only
  cases r.refusal? (s.state.positions.get? key) <;> rfl

instance : Celled MemoryStore where
  own c s := by
    show Except.ok (((answer c).after s).state.load c.key) = c.leaves (.ok (s.state.load c.key))
    cases c with
    | load key => rfl
    | save key p =>
      rw [answer_save_after]
      exact congrArg Except.ok (load_save key p s)
    | reset key r =>
      rw [reset_after]
      unfold StoreCall.leaves load
      dsimp only [StoreCall.key]
      rw [Position.known?_ofKnown]
      split
      · rw [Keyed.get?_set, if_pos rfl]
      · rfl
  others c s key h := by
    show Except.ok (((answer c).after s).state.load key) = .ok (s.state.load key)
    cases c with
    | load _ => rfl
    | save k p =>
      rw [answer_save_after]
      exact congrArg Except.ok (load_save_of_ne h p s)
    | reset k r =>
      rw [reset_after]
      unfold load
      split
      · rw [Keyed.get?_set, if_neg (show k ≠ key from h)]
      · rfl

end MemoryStore

/-! ## On a file -/

namespace FileStore

/-- The copy is what the call has the file say, or what it was. -/
theorem answer_store (c : StoreCall) (m : Logged Mounted) :
    ((answer c).after m).state.store = (m.state.store.written? c).getD m.state.store := by
  rw [answer_after]
  cases call_ending c m with
  | refused refusal run => rw [Act.after_of_error run, written?_of_refusal refusal]; rfl
  | needless refusal written run => rw [Act.after_of_ok run, written]; rfl
  | replaced refusal written failure run store disk =>
    rw [Act.after_of_ok run, written, store]; rfl
  | unforced refusal written failure run store disk =>
    rw [Act.after_of_error run, written, store]; rfl
  | failed refusal written failure early run store disk =>
    rw [Act.after_of_error run, written, store]; rfl

theorem refusal?_reset (s : FileStore) (key : Text) (r : Reset) :
    s.refusal? (.reset key r) = match s.load key with
      | .error f => if r.force then none else some f
      | .ok q => (r.refusal? q.known?).map .argument := by
  unfold refusal?
  dsimp only
  rw [load_eq]
  cases hc : s.corruption? key with
  | none =>
    dsimp only
    rw [Position.known?_ofKnown, ite_self]
    rfl
  | some f =>
    dsimp only
    cases hforce : r.force with
    | false => rfl
    | true =>
      have hnone : r.refusal? (s.positions.get? key) = none := if_pos hforce
      rw [hnone]
      rfl

theorem load_afterReset (s : FileStore) (key : Text) (r : Reset) :
    (s.afterReset key r).load key = .ok (.ofKnown r.sequence?) := by
  refine load_eq_ok.2 ⟨Keyed.get?_erase_self .., ?_⟩
  show Position.ofKnown ((s.positions.set key r.sequence?).get? key) = _
  rw [Keyed.get?_set, if_pos rfl]

theorem load_afterReset_of_ne (s : FileStore) {key key' : Text} (h : key ≠ key') (r : Reset) :
    (s.afterReset key r).load key' = s.load key' := by
  unfold load current afterReset
  dsimp only
  rw [Keyed.get?_erase_of_ne _ h, Keyed.get?_set, if_neg h]

/-- A call that is refused is refused by what is in the cell of its key, and one that returns
something returns what is there. -/
theorem verdict_load (s : FileStore) (c : StoreCall) :
    c.verdict (s.load c.key) = match s.refusal? c with
      | some f => .error f
      | none => .ok (s.returned c) := by
  cases c with
  | load key =>
    unfold StoreCall.verdict returned refusal?
    dsimp only [StoreCall.key]
    rw [load_eq]
    cases s.corruption? key <;> rfl
  | save key p =>
    cases p with
    | null => rfl
    | known n =>
      unfold StoreCall.verdict refusal?
      dsimp only [StoreCall.key]
      rw [load_eq]
      cases s.corruption? key <;> rfl
  | reset key r =>
    rw [refusal?_reset]
    dsimp only [StoreCall.key]
    cases s.load key with
    | error f =>
      unfold StoreCall.verdict
      dsimp only
      split <;> rfl
    | ok q =>
      unfold StoreCall.verdict
      dsimp only
      cases r.refusal? q.known? <;> rfl

theorem answer_of_refused {c : StoreCall} {m : Logged Mounted} {f : Fault}
    (h : c.verdict (m.state.store.load c.key) = .error f) : answer c m = .error f m := by
  rw [verdict_load] at h
  cases hrefusal : m.state.store.refusal? c with
  | some g =>
    rw [hrefusal] at h
    cases h
    exact answer_of_error (call_of_refusal hrefusal)
  | none => rw [hrefusal] at h; cases h

/-- A call to a store on a file ends by what is in the cell of its key, unless a file call fails. -/
theorem result_answer {c : StoreCall} {m : Logged Mounted} (h : failure? m.state c = none) :
    (answer c).result m = c.verdict (m.state.store.load c.key) := by
  rw [verdict_load]
  cases call_ending c m with
  | refused refusal run => rw [Act.result_of_error (answer_of_error run), refusal]
  | needless refusal written run => rw [Act.result_of_ok (answer_of_ok run), refusal]
  | replaced refusal written failure run store disk =>
    rw [Act.result_of_ok (answer_of_ok run), refusal]
  | unforced refusal written failure run store disk => rw [failure] at h; cases h
  | failed refusal written failure early run store disk => rw [failure] at h; cases h

theorem load_written_of_ne {s t : FileStore} {c : StoreCall} (h : s.written? c = some t)
    {key : Text} (hne : c.key ≠ key) : t.load key = s.load key := by
  rcases written?_cases h with ⟨k, n, rfl, -, rfl⟩ | ⟨k, r, rfl, rfl⟩
  · exact load_put_of_ne s hne n
  · exact load_afterReset_of_ne s hne r

/-- What the copy holds for the key of a call that is not refused. -/
theorem load_revision {s : FileStore} {c : StoreCall} (hrefusal : s.refusal? c = none) :
    ((s.revision? c).getD s).load c.key = c.leaves (s.load c.key) := by
  have hverdict := verdict_load s c
  rw [hrefusal] at hverdict
  cases c with
  | load key => rfl
  | save key p =>
    cases p with
    | null =>
      show s.load key = (s.load key).map (max · .null)
      cases s.load key with
      | error f => rfl
      | ok q => exact congrArg Except.ok (max_eq_left (Position.null_le q)).symm
    | known n =>
      have hload := load_eq s key
      rw [show s.corruption? key = none from hrefusal] at hload
      unfold revision? StoreCall.leaves
      dsimp only [StoreCall.key]
      split
      · rename_i hcov
        show s.load key = _
        rw [hload]
        exact congrArg Except.ok (max_eq_left (covers_iff.1 hcov)).symm
      · rename_i hcov
        show (s.put key n).load key = _
        rw [hload, load_put_self hload]
        exact congrArg Except.ok (max_eq_right (le_of_not_ge fun h => hcov (covers_iff.2 h))).symm
  | reset key r =>
    rw [StoreCall.leaves_of_reset hverdict]
    exact load_afterReset s key r

instance : Celled Mounted where
  own c m := by
    show ((answer c).after m).state.store.load c.key = c.leaves (m.state.store.load c.key)
    rw [answer_store]
    have hverdict := verdict_load m.state.store c
    cases hrefusal : m.state.store.refusal? c with
    | some f =>
      rw [hrefusal] at hverdict
      rw [written?_of_refusal hrefusal, StoreCall.leaves_of_error hverdict]
      rfl
    | none => rw [written?_of_none hrefusal, load_revision hrefusal]
  others c m key h := by
    show ((answer c).after m).state.store.load key = m.state.store.load key
    rw [answer_store]
    cases hwritten : m.state.store.written? c with
    | none => rfl
    | some t => exact load_written_of_ne hwritten h

end FileStore

/-! ## On a host -/

namespace Host

/-- The file call that fails in the course of a call, if one does. -/
def failure? (h : Host) (c : StoreCall) : Option FileCall :=
  match h.store with
  | .memory _ => none
  | .file s => FileStore.failure? ⟨s, h.disk⟩ c

theorem act_result {α : Type} (onMemory : Act MemoryStore α) (onFile : Act Mounted α)
    (h : Logged Host) :
    (act onMemory onFile).result h = match h.state.store with
      | .memory s => onMemory.result ⟨s, h.notices⟩
      | .file s => onFile.result ⟨⟨s, h.state.disk⟩, h.notices⟩ := by
  unfold act
  rw [Act.result_congr (Act.state_bind _ h)]
  cases h.state.store with
  | memory s => exact Act.result_within _ _ onMemory h
  | file s => exact Act.result_within _ _ onFile h

theorem act_bind_pure {α β : Type} (onMemory : Act MemoryStore α) (onFile : Act Mounted α)
    (g : α → β) (h : Logged Host) :
    (act onMemory onFile >>= fun a => pure (g a)) h =
      act (onMemory >>= fun a => pure (g a)) (onFile >>= fun a => pure (g a)) h := by
  rw [Act.bind_run]
  unfold act
  rw [Act.state_bind, Act.state_bind]
  cases h.state.store with
  | memory s =>
    dsimp only
    unfold Act.within
    rw [Act.bind_run]
    cases onMemory ⟨s, h.notices⟩ <;> rfl
  | file s =>
    dsimp only
    unfold Act.within
    rw [Act.bind_run]
    cases onFile ⟨⟨s, h.state.disk⟩, h.notices⟩ <;> rfl

/-- A host answers as its store does. -/
theorem answer_eq (c : StoreCall) (h : Logged Host) :
    answer c h = act (answer c) (answer c) h := by
  cases c with
  | load key =>
    obtain ⟨⟨disk, store⟩, ns⟩ := h
    cases store with
    | memory s => rfl
    | file s =>
      show (Act.ofExcept (s.load key) >>= fun q => pure (some q) : Act Host _) _ =
        Act.within (fun h : Host => (⟨s, h.disk⟩ : Mounted)) (fun m _ => ⟨m.disk, .file m.store⟩)
          (answer (.load key)) _
      have hrun : answer (.load key) (⟨⟨s, disk⟩, ns⟩ : Logged Mounted) =
          (Act.ofExcept (s.load key) >>= fun q => pure (some q) : Act Mounted _)
            ⟨⟨s, disk⟩, ns⟩ := rfl
      unfold Act.within
      dsimp only
      rw [hrun]
      cases s.load key <;> rfl
  | save key p => exact act_bind_pure _ _ (fun _ => none) h
  | reset key r => exact act_bind_pure _ _ (fun _ => none) h

/-- A call to the store of a host ends by what is in the cell of its key, unless a file call
fails. -/
theorem result_answer {c : StoreCall} {h : Logged Host} (hfail : h.state.failure? c = none) :
    (answer c).result h = c.verdict (h.state.load c.key) := by
  rw [Act.result_congr (answer_eq c h), act_result]
  unfold failure? at hfail
  unfold load
  cases hs : h.state.store with
  | memory s => exact MemoryStore.result_answer c ⟨s, h.notices⟩
  | file s =>
    rw [hs] at hfail
    exact FileStore.result_answer hfail

/-- A call that is refused does nothing at all to the host. -/
theorem answer_after_of_refused {c : StoreCall} {h : Logged Host} {f : Fault}
    (hrefused : c.verdict (h.state.load c.key) = .error f) :
    ((answer c).after h).state = h.state := by
  rw [Act.after_congr (answer_eq c h), act_after]
  obtain ⟨⟨disk, store⟩, ns⟩ := h
  cases store with
  | memory s =>
    dsimp only
    rw [Act.after_of_error (MemoryStore.answer_of_refused hrefused)]
  | file s =>
    dsimp only
    rw [Act.after_of_error (FileStore.answer_of_refused (m := ⟨⟨s, disk⟩, ns⟩) hrefused)]

instance : Celled Host where
  own c h := by
    show Host.load ((answer c).after h).state c.key = c.leaves (h.state.load c.key)
    rw [Act.after_congr (answer_eq c h), act_after]
    unfold load
    cases h.state.store with
    | memory s => exact Celled.own c (⟨s, h.notices⟩ : Logged MemoryStore)
    | file s => exact Celled.own c (⟨⟨s, h.state.disk⟩, h.notices⟩ : Logged Mounted)
  others c h key hne := by
    show Host.load ((answer c).after h).state key = h.state.load key
    rw [Act.after_congr (answer_eq c h), act_after]
    unfold load
    cases h.state.store with
    | memory s => exact Celled.others c (⟨s, h.notices⟩ : Logged MemoryStore) key hne
    | file s => exact Celled.others c (⟨⟨s, h.state.disk⟩, h.notices⟩ : Logged Mounted) key hne

end Host

end Changefeed
